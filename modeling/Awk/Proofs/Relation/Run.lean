import Awk.Host
import Awk.Proofs.Relation.Statement

/-!
# Runs transport relations

The rules of a program, the records of an input and the inputs of a run, for a
relation that holds of the actions and of what a run does between them.  The
main statement is `program_related`, for a relation that holds of all
statements.
-/

namespace Awk

structure Running (Q : ExecRelation) (run₁ run₂ : Runner) :
    Prop extends Looping Q run₁ run₂ where
  move : ∀ {α : Type} {x : Exec α}, Primitive Move x → Q α x x

structure Driving (Q : ExecRelation) (run₁ run₂ : Runner) :
    Prop extends Running Q run₁ run₂ where
  shift : ∀ {α : Type} {x : Exec α}, Primitive Shift x → Q α x x
  recordLoop : ∀ (count : Nat) {turn₁ turn₂ : Exec Bool}, Q Bool turn₁ turn₂ →
    Q Unit (run₁.recordLoop count turn₁) (run₂.recordLoop count turn₂)

structure Testing (Q : ExecRelation) (run₁ run₂ : Runner)
    (P : Part → Prop := fun _ => True)
    (C : Machine → Machine → Prop := Change) : Prop extends Sequential Q C where
  test : ∀ e : Expr, (∀ x ∈ e.parts, P x) →
    Q Bool (isTrue run₁.services e) (isTrue run₂.services e)
  move : ∀ {α : Type} {x : Exec α}, Primitive Move x → Q α x x

/-- A relation that the actions of some rules keep, and what a run does between
them. -/
structure RuleWise (Q : ExecRelation) (rules : List Rule) (run₁ run₂ : Runner)
    (P : Part → Prop := fun _ => True)
    (C : Machine → Machine → Prop := Change)
    (E : Machine → Machine → Prop := StraightEffect) : Prop
    extends Testing Q run₁ run₂ P C where
  tests : ∀ r ∈ rules, ∀ e ∈ r.trigger.tests, ∀ x ∈ e.parts, P x := by
    exact fun _ _ _ _ _ _ => trivial
  action : ∀ r ∈ rules, Q Unit (Stmt.execAll run₁ r.action)
    (Stmt.execAll run₂ r.action)
  straight : ∀ {α : Type} {x : Exec α}, Primitive E x → Q α x x

structure RuleSteps (Q : ExecRelation) (At : Nat → Rule → Prop)
    (run₁ run₂ : Runner)
    (C : Machine → Machine → Prop := Change)
    (E : Machine → Machine → Prop := StraightEffect) : Prop
    extends Sequential Q C where
  trial : ∀ {index r}, At index r →
    Q Bool (r.trigger.holds run₁ index) (r.trigger.holds run₂ index)
  action : ∀ {index r}, At index r →
    Q Unit (Stmt.execAll run₁ r.action) (Stmt.execAll run₂ r.action)
  straight : ∀ {α : Type} {x : Exec α}, Primitive E x → Q α x x
  stage : ∀ stage, Q Unit (setStage stage) (setStage stage)

structure InputSteps (Q : ExecRelation) (At : Nat → Rule → Prop)
    (run₁ run₂ : Runner) : Prop
    extends RuleSteps Q At run₁ run₂ where
  shift : ∀ {α : Type} {x : Exec α}, Primitive Shift x → Q α x x
  recordLoop : ∀ (count : Nat) {turn₁ turn₂ : Exec Bool}, Q Bool turn₁ turn₂ →
    Q Unit (run₁.recordLoop count turn₁) (run₂.recordLoop count turn₂)

structure InputWise (Q : ExecRelation) (rules : List Rule)
    (run₁ run₂ : Runner) : Prop
    extends RuleWise Q rules run₁ run₂ where
  shift : ∀ {α : Type} {x : Exec α}, Primitive Shift x → Q α x x
  recordLoop : ∀ (count : Nat) {turn₁ turn₂ : Exec Bool}, Q Bool turn₁ turn₂ →
    Q Unit (run₁.recordLoop count turn₁) (run₂.recordLoop count turn₂)

variable {Q : ExecRelation} {run₁ run₂ : Runner} {P : Part → Prop}
  {C E : Machine → Machine → Prop}

theorem Running.ruleWise (hQ : Running Q run₁ run₂) (rules : List Rule) :
    RuleWise Q rules run₁ run₂ where
  toSequential := hQ.toSequential
  test := fun e parts => isTrue_related hQ.toStraight e parts
  action := fun r _ => Stmt.execAll_related hQ.toLooping r.action fun _ _ =>
    trivial
  straight := fun h => hQ.straight (h.mono fun _ _ => StraightEffect.effect)
  move := hQ.move

theorem Driving.inputWise (hQ : Driving Q run₁ run₂) (rules : List Rule) :
    InputWise Q rules run₁ run₂ where
  toRuleWise := hQ.toRunning.ruleWise rules
  shift := hQ.shift
  recordLoop := hQ.recordLoop

/-! ## What a run does between statements -/

theorem setStage_primitive (stage : Stage) : Primitive Move (setStage stage) :=
  .modify (fun _ => .stage stage) (fun _ => rfl) fun _ _ => rfl

theorem setRange_primitive (index : Nat) (isOpen : Bool) :
    Primitive Move (setRange index isOpen) :=
  .modify (fun m => .ranges (m.ranges.set index isOpen))
    (fun _ => rfl) fun _ _ => rfl

theorem attachInput_primitive (text : Option String) :
    Primitive Shift (Exec.attachInput text) :=
  .modify (fun _ => .attach text) (fun _ => rfl) fun m s => by
    rw [Shift.amid_eq, Shift.amid_eq]; rfl

theorem setNextRecord_primitive (next : Nat) :
    Primitive Shift (Exec.setNextRecord next) :=
  .modify (fun _ => .advance next) (fun _ => rfl) fun m s => by
    rw [Shift.amid_eq, Shift.amid_eq]; rfl

theorem noteRule_primitive [Admits C] (index : Nat) :
    Primitive C (noteRule index) := by
  refine .get_bind (fun _ _ => rfl) fun m => ?_
  dsimp only
  cases number : m.specials.nr.truncate? with
  | none => exact .throw (.recordNumber number)
  | some n => exact Exec.note_primitive _ m

theorem recordTurns_related (hQ : Sequential Q C) {turn₁ turn₂ : Exec Bool}
    (h : Q Bool turn₁ turn₂) (left : Nat) :
    Q Unit (recordTurns turn₁ left) (recordTurns turn₂ left) := by
  induction left with
  | zero => exact hQ.pure ()
  | succ left ih =>
      refine hQ.bind h fun again => ?_
      cases again with
      | false => exact hQ.pure ()
      | true => exact ih

theorem assignAll_primitive (presets : List (String × String)) :
    Primitive Change (assignAll presets) := by
  induction presets with
  | nil => exact .pure ()
  | cons preset rest ih =>
      exact (Exec.assignVariable_primitive preset.1 _).bind fun _ => ih

theorem useOptions_primitive (options : Options) :
    Primitive Change (useOptions options) :=
  (Exec.setSpecials_primitive options.specials).bind fun _ =>
    assignAll_primitive _

theorem reserveFrames_apply (m : Machine) :
    reserveFrames m =
      if maxFrames < framesFor m.limits.calls then
        .error (.frames (framesFor m.limits.calls)) m
      else .ok () m := by
  unfold reserveFrames
  rw [Exec.get_bind_apply]
  split <;> rfl

theorem reserveFrames_keeps {R : Machine → Machine → Prop}
    [IsPreorder Machine R] :
    Exec.Keeps R reserveFrames := by
  intro m
  unfold Exec.final
  rw [reserveFrames_apply]
  split <;> exact refl_of R m

theorem useOptions_limits {options : Options} {m m' : Machine}
    (used : useOptions options m = .ok () m') : m'.limits = m.limits := by
  have kept :=
    (useOptions_primitive options).constant (fun _ _ => Change.limits) m
  rwa [Exec.final_ok used] at kept

/-- Once the options are applied, the frames decide whether the program runs. -/
theorem loaded_apply {options : Options} {m m' : Machine}
    (used : useOptions options m = .ok () m') (run : Runner) (p : Program)
    (inputs : List NamedInput) :
    run.loaded p inputs options m =
      if maxFrames < framesFor m.limits.calls then
        .error (.frames (framesFor m.limits.calls)) ((load p).final m')
      else run.program p inputs ((load p).final m') := by
  have reserved := reserveFrames_apply ((load p).final m')
  have same : ((load p).final m').limits = m.limits := by
    change m'.limits = m.limits
    exact useOptions_limits used
  rw [same] at reserved
  unfold Runner.loaded
  rw [Exec.bind_ok used]
  change (reserveFrames >>= fun _ => run.program p inputs) ((load p).final m') =
    _
  split
  · next excess => exact Exec.bind_error (reserved.trans (if_pos excess)) _
  · next enough => exact Exec.bind_ok (reserved.trans (if_neg enough)) _

/-! ## Patterns -/

section Patterns

variable [Admits C] (hQ : Testing Q run₁ run₂ P C)

include hQ

theorem Guard.holds_related (g : Guard)
    (tests : ∀ e ∈ g.tests, ∀ x ∈ e.parts, P x) :
    Q Bool (g.holds run₁) (g.holds run₂) := by
  cases g with
  | regex pattern =>
      refine hQ.get_bind (fun _ _ => rfl) (fun _ _ => rfl) fun m => ?_
      exact hQ.primitive (Exec.occurs_primitive pattern _)
  | expr e => exact hQ.test e (tests e (List.mem_singleton.2 rfl))

theorem inRange_related (index : Nat) (start stop : Guard)
    (tests : ∀ e ∈ start.tests ++ stop.tests, ∀ x ∈ e.parts, P x) :
    Q Bool (inRange run₁ index start stop) (inRange run₂ index start stop) := by
  rw [List.forall_mem_append] at tests
  have isOpen : Q Bool (rangeOpen index) (rangeOpen index) :=
    hQ.primitive (.view fun _ _ => rfl)
  refine hQ.bind isOpen fun isOpen => ?_
  split
  · refine hQ.bind (Guard.holds_related hQ stop tests.2) fun closes => ?_
    split
    · exact hQ.bind (hQ.move (setRange_primitive index false)) fun _ =>
        hQ.pure true
    · exact hQ.pure true
  · refine hQ.bind (Guard.holds_related hQ start tests.1) fun opens => ?_
    split
    · refine hQ.bind (Guard.holds_related hQ stop tests.2) fun closes => ?_
      exact hQ.bind (hQ.move (setRange_primitive index _)) fun _ => hQ.pure true
    · exact hQ.pure false

theorem Trigger.applies_related (index : Nat) (t : Trigger)
    (tests : ∀ e ∈ t.tests, ∀ x ∈ e.parts, P x) :
    Q Bool (t.holds run₁ index) (t.holds run₂ index) := by
  cases t with
  | begin => exact hQ.pure false
  | finish => exact hQ.pure false
  | always => exact hQ.pure true
  | «when» guard => exact Guard.holds_related hQ guard tests
  | range start stop => exact inRange_related hQ index start stop tests

omit [Admits C] hQ in
theorem Trigger.holds_related {rules : List Rule}
    (hQ : RuleWise Q rules run₁ run₂) (index : Nat) (t : Trigger) :
    Q Bool (t.holds run₁ index) (t.holds run₂ index) :=
  Trigger.applies_related hQ.toTesting index t fun _ _ _ _ => trivial

omit hQ in
theorem RuleWise.steps {rules : List Rule}
    (hQ : RuleWise Q rules run₁ run₂ P C E) :
    RuleSteps Q (fun _ r => r ∈ rules) run₁ run₂ C E where
  toSequential := hQ.toSequential
  trial := fun {index r} rule =>
    Trigger.applies_related hQ.toTesting index r.trigger (hQ.tests r rule)
  action := fun {_ r} rule => hQ.action r rule
  straight := hQ.straight
  stage := fun stage => hQ.move (setStage_primitive stage)

end Patterns

/-! ## Rules -/

def Placed (At : Nat → Rule → Prop) (index : Nat) (rules : List Rule) : Prop :=
  ∀ k r, rules[k]? = some r → At (index + k) r

section Placed

variable {At : Nat → Rule → Prop} {index : Nat} {r : Rule} {rest : List Rule}

theorem Placed.head (h : Placed At index (r :: rest)) : At index r := h 0 r rfl

theorem Placed.tail (h : Placed At index (r :: rest)) :
    Placed At (index + 1) rest := by
  intro k r' found
  have placed := h (k + 1) r' found
  rwa [Nat.add_comm k 1, ← Nat.add_assoc] at placed

theorem placed_of_subset {part rules : List Rule} (inside : part ⊆ rules)
    (index : Nat) :
    Placed (fun _ r => r ∈ rules) index part :=
  fun _ _ found => inside (List.mem_of_getElem? found)

theorem placed_getElem? (rules : List Rule) :
    Placed (fun index r => rules[index]? = some r) 0 rules := by
  intro k r found
  rwa [Nat.zero_add]

end Placed

theorem ifExiting_apply {α : Type} (x y : Exec α) (m : Machine) :
    (do
      if ← isExiting then x
      else y : Exec α) m = if m.flow.exiting = true then x m else y m := by
  change (if m.flow.exiting = true then x else y) m = _
  split <;> rfl

theorem moreInputs_after {m : Machine} (exiting : m.flow.exiting = true)
    (run : Runner) (p : Program) (inputs : List NamedInput) :
    run.moreInputs p inputs m = .ok () m := by
  cases inputs with
  | nil => rfl
  | cons input rest => exact (ifExiting_apply _ _ m).trans (if_pos exiting)

theorem inputs_cons_apply (run : Runner) (p : Program) (first : NamedInput)
    (rest : List NamedInput) (m : Machine) :
    run.inputs p (first :: rest) m =
      if m.flow.exiting = true then .ok () m
      else (run.input p first.name >>= fun _ => run.moreInputs p rest) m :=
  ifExiting_apply _ _ m

section RuleSteps

variable {At : Nat → Rule → Prop} (hQ : RuleSteps Q At run₁ run₂ C E)

include hQ

theorem isExiting_related : Q Bool isExiting isExiting :=
  hQ.primitive (.view fun _ _ => rfl)

theorem ifExiting_related {α : Type} {x₁ x₂ y₁ y₂ : Exec α} (hx : Q α x₁ x₂)
    (hy : Q α y₁ y₂) :
    Q α
      (do
        if ← isExiting then x₁
        else y₁)
      (do
        if ← isExiting then x₂
        else y₂) := by
  refine hQ.bind (isExiting_related hQ) fun b => ?_
  split
  · exact hx
  · exact hy

namespace RuleSteps

theorem beginRules [Admits C] {index : Nat} {part : List Rule}
    (placed : Placed At index part) :
    Q Unit (run₁.beginRules part) (run₂.beginRules part) := by
  induction part generalizing index with
  | nil => exact hQ.pure ()
  | cons r rest ih =>
      unfold Runner.beginRules
      cases r.trigger with
      | begin =>
          refine hQ.bind (hQ.action placed.head) fun _ => ?_
          exact ifExiting_related hQ (hQ.primitive (Exec.note_primitive _))
            (ih placed.tail)
      | _ => exact ih placed.tail

theorem begin [Admits C] {p : Program} (placed : Placed At 0 p.rules) :
    Q Unit (run₁.begin p) (run₂.begin p) :=
  hQ.bind (hQ.stage .begin) fun _ => hQ.beginRules placed

theorem recordRules [Admits C] {index : Nat} {part : List Rule}
    (placed : Placed At index part) :
    Q Unit (run₁.recordRules index part) (run₂.recordRules index part) := by
  induction part generalizing index with
  | nil => exact hQ.pure ()
  | cons r rest ih =>
      refine hQ.get_bind (fun _ _ => rfl) (fun _ _ => rfl) fun m => ?_
      dsimp only
      split
      · exact hQ.pure ()
      · refine hQ.bind (hQ.trial placed.head) fun applies => ?_
        split
        · refine hQ.bind (hQ.primitive (noteRule_primitive index)) fun _ => ?_
          exact hQ.bind (hQ.action placed.head) fun _ => ih placed.tail
        · exact ih placed.tail

theorem endRules [Steers E] {index : Nat} {part : List Rule}
    (placed : Placed At index part) :
    Q Unit (run₁.endRules part) (run₂.endRules part) := by
  induction part generalizing index with
  | nil => exact hQ.pure ()
  | cons r rest ih =>
      refine ifExiting_related hQ (hQ.pure ()) ?_
      cases r.trigger with
      | finish =>
          refine hQ.bind (hQ.action placed.head) fun _ => ?_
          refine hQ.bind (isExiting_related hQ) fun exits => ?_
          split
          · have note :=
              steer_primitive (E := E) (fun f => { f with
                exitFromEnd := true }) (fun _ => ⟨rfl, rfl, rfl⟩) fun _ => id
            exact hQ.bind (hQ.straight note) fun _ => ih placed.tail
          · exact ih placed.tail
      | _ => exact ih placed.tail

theorem finish [Steers E] {p : Program} (placed : Placed At 0 p.rules) :
    Q Unit (run₁.finish p) (run₂.finish p) := by
  have clear :=
    steer_primitive (E := E) Flow.atEnd (fun _ => ⟨rfl, rfl, rfl⟩)
      (by simp [Flow.atEnd])
  refine hQ.bind (hQ.stage .finish) fun _ => ?_
  refine hQ.bind (hQ.straight clear) fun _ => ?_
  exact hQ.bind (hQ.endRules placed) fun _ => hQ.stage .done

end RuleSteps

end RuleSteps

section Records

variable [Admits C] [Steers E] {At : Nat → Rule → Prop}
    (hQ : RuleSteps Q At run₁ run₂ C E)
    (count : Q Unit Exec.countRecord Exec.countRecord)

include hQ count

theorem RuleSteps.record {p : Program} (placed : Placed At 0 p.rules)
    (text : String) :
    Q Unit (run₁.record p text) (run₂.record p text) := by
  refine ifExiting_related hQ (hQ.pure ()) ?_
  refine hQ.bind (hQ.stage .main) fun _ => ?_
  refine hQ.bind (hQ.primitive (Exec.setLine_primitive text)) fun _ => ?_
  refine hQ.bind count fun _ => ?_
  have clear :=
    steer_primitive (E := E) (fun f => { f with
      next := false }) (fun _ => ⟨rfl, rfl, rfl⟩) fun _ => id
  exact hQ.bind (hQ.straight clear) fun _ => hQ.recordRules placed

theorem RuleSteps.takeRecord {p : Program} (placed : Placed At 0 p.rules)
    (text : String) :
    Q Bool (run₁.takeRecord p text) (run₂.takeRecord p text) := by
  refine hQ.bind (hQ.record count placed text) fun _ => ?_
  refine hQ.get_bind (fun _ _ => rfl) (fun _ _ => rfl) fun m => ?_
  split
  · have clear :=
      steer_primitive (E := E) (fun f => { f with
        nextFile := false }) (fun _ => ⟨rfl, rfl, rfl⟩) (by simp)
    exact hQ.bind (hQ.straight clear) fun _ => hQ.pure false
  · exact hQ.pure true

end Records

section RuleWise

variable [Admits C] {rules : List Rule} (hQ : RuleWise Q rules run₁ run₂ P C E)

include hQ

theorem beginRules_related {part : List Rule} (inside : part ⊆ rules) :
    Q Unit (run₁.beginRules part) (run₂.beginRules part) :=
  hQ.steps.beginRules (placed_of_subset inside 0)

theorem begin_related {p : Program} (inside : p.rules ⊆ rules) :
    Q Unit (run₁.begin p) (run₂.begin p) :=
  hQ.steps.begin (placed_of_subset inside 0)

theorem recordRules_related (index : Nat) {part : List Rule}
    (inside : part ⊆ rules) :
    Q Unit (run₁.recordRules index part) (run₂.recordRules index part) :=
  hQ.steps.recordRules (placed_of_subset inside index)

theorem endRules_related [Steers E] {part : List Rule} (inside : part ⊆ rules) :
    Q Unit (run₁.endRules part) (run₂.endRules part) :=
  hQ.steps.endRules (placed_of_subset inside 0)

theorem finish_related [Steers E] {p : Program} (inside : p.rules ⊆ rules) :
    Q Unit (run₁.finish p) (run₂.finish p) :=
  hQ.steps.finish (placed_of_subset inside 0)

omit [Admits C] hQ in
theorem record_related (hQ : RuleWise Q rules run₁ run₂ P) {p : Program}
    (inside : p.rules ⊆ rules) (text : String) :
    Q Unit (run₁.record p text) (run₂.record p text) :=
  hQ.steps.record (hQ.primitive Exec.countRecord_primitive)
    (placed_of_subset inside 0) text

omit [Admits C] hQ in
theorem takeRecord_related (hQ : RuleWise Q rules run₁ run₂ P) {p : Program}
    (inside : p.rules ⊆ rules) (text : String) :
    Q Bool (run₁.takeRecord p text) (run₂.takeRecord p text) :=
  hQ.steps.takeRecord (hQ.primitive Exec.countRecord_primitive)
    (placed_of_subset inside 0) text

end RuleWise

/-! ## Inputs -/

namespace InputSteps

variable {At : Nat → Rule → Prop} {p : Program} (hQ : InputSteps Q At run₁ run₂)
    (placed : Placed At 0 p.rules)

include hQ placed

theorem recordTurn (records : Array String) :
    Q Bool (run₁.recordTurn p records) (run₂.recordTurn p records) := by
  refine ifExiting_related hQ.toRuleSteps (hQ.pure false) ?_
  refine hQ.get_bind_input (fun _ _ => rfl) (fun _ _ => rfl) fun m => ?_
  dsimp only
  cases records[m.input.next]? with
  | none => exact hQ.pure false
  | some text =>
      refine hQ.bind (hQ.shift (setNextRecord_primitive _)) fun _ => ?_
      exact hQ.takeRecord (hQ.primitive Exec.countRecord_primitive) placed text

theorem input (name : String) :
    Q Unit (run₁.input p name) (run₂.input p name) := by
  have file := Exec.setSpecials_primitive fun s => { s with filename := name }
  refine hQ.bind (hQ.primitive file) fun _ => ?_
  refine hQ.bind (hQ.primitive Exec.records_primitive) fun records => ?_
  exact hQ.recordLoop _ (hQ.recordTurn placed _)

theorem moreInputs (inputs : List NamedInput) :
    Q Unit (run₁.moreInputs p inputs) (run₂.moreInputs p inputs) := by
  induction inputs with
  | nil => exact hQ.pure ()
  | cons input rest ih =>
      have restart := Exec.setSpecials_primitive fun s =>
        { s with fnr := Number.zero }
      refine ifExiting_related hQ.toRuleSteps (hQ.pure ()) ?_
      refine hQ.bind (hQ.primitive restart) fun _ => ?_
      refine hQ.bind (hQ.shift (attachInput_primitive (some input.text)))
        fun _ => ?_
      exact hQ.bind (hQ.input placed input.name) fun _ => ih

theorem inputs (inputs : List NamedInput) :
    Q Unit (run₁.inputs p inputs) (run₂.inputs p inputs) := by
  cases inputs with
  | nil => exact hQ.pure ()
  | cons first rest =>
      refine ifExiting_related hQ.toRuleSteps (hQ.pure ()) ?_
      exact hQ.bind (hQ.input placed first.name) fun _ =>
        hQ.moreInputs placed rest

/-- A relation that the parts of a run keep relates the whole runs of two
runners. -/
theorem program (inputs : List NamedInput) :
    Q Unit (run₁.program p inputs) (run₂.program p inputs) := by
  have rules : Q Unit (do run₁.begin p; run₁.inputs p inputs; run₁.finish p)
      (do run₂.begin p; run₂.inputs p inputs; run₂.finish p) := by
    refine hQ.bind (hQ.begin placed) fun _ => ?_
    exact hQ.bind (hQ.inputs placed inputs) fun _ => hQ.finish placed
  cases inputs with
  | nil => exact rules
  | cons first rest =>
      exact hQ.bind (hQ.shift (attachInput_primitive (some first.text)))
        fun _ => rules

end InputSteps

theorem InputWise.program_related {p : Program}
    (hQ : InputWise Q p.rules run₁ run₂) (inputs : List NamedInput) :
    Q Unit (run₁.program p inputs) (run₂.program p inputs) := by
  have steps : InputSteps Q (fun _ r => r ∈ p.rules) run₁ run₂ :=
    { hQ.toRuleWise.steps with shift := hQ.shift, recordLoop := hQ.recordLoop }
  exact steps.program (placed_of_subset (List.Subset.refl _) 0) inputs

theorem program_related (hQ : Driving Q run₁ run₂) (p : Program)
    (inputs : List NamedInput) :
    Q Unit (run₁.program p inputs) (run₂.program p inputs) :=
  (hQ.inputWise p.rules).program_related inputs

end Awk
