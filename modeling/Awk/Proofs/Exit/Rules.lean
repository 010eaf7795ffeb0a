import Awk.Proofs.Exit.Statement
import Awk.Proofs.Records.Run

/-!
# Exit takes effect at once

Between the rules the mark of an exit is tested as well: the remaining `BEGIN`
rules, the rules for a record, the other records and the other inputs are passed
over.  So a run up to its `END` rules, and the `END` rules themselves, leave
behind what they would have left if they had been stopped by a fault at the
first `exit`, provided that functions that may exit are called by statements of
their own.  Inside of an expression such a call does not end the statement.
-/

namespace Awk

/-! ## Programs that stop where they exit -/

def Rule.stopping (r : Rule) : Rule :=
  { r with action := Stmt.stoppingAll r.action }

theorem Rule.trigger_stopping (r : Rule) : r.stopping.trigger = r.trigger := rfl

/-- The program whose actions fail where they exit.  What the bodies of its
functions do is up to the runner. -/
def Program.stopping (p : Program) : Program :=
  { p with rules := p.rules.map Rule.stopping }

/-- Functions that may exit are called by actions and by each other only, and by
statements of their own. -/
structure Program.ExitsPlainly (p : Program) (may : String → Bool) : Prop where
  tests : ∀ r ∈ p.rules, ∀ e ∈ r.trigger.tests, e.spares may = true
  actions : ∀ r ∈ p.rules, Stmt.exitsPlainlyAll may true r.action = true
  bodies : ∀ f ∈ p.functions, Stmt.exitsPlainlyAll may (may f.name) f.body =
    true

def Runner.opening (run : Runner) (p : Program) (inputs : List NamedInput) :
    Exec Unit := do
  match inputs with
  | [] => pure ()
  | first :: _ => Exec.attachInput (some first.text)
  run.begin p
  run.inputs p inputs

theorem Runner.program_eq (run : Runner) (p : Program)
    (inputs : List NamedInput) :
    run.program p inputs = (do run.opening p inputs; run.finish p) := by
  cases inputs with
  | nil => simp only [Runner.program, Runner.opening, bind_assoc]
  | cons first rest => simp only [Runner.program, Runner.opening, bind_assoc]

/-! ## After an exit -/

theorem recordTurns_after {turn : Exec Bool} {m : Machine}
    (last : turn m = .ok false m) (left : Nat) :
    recordTurns turn left m = .ok () m := by
  cases left with
  | zero => rfl
  | succ left => exact Exec.bind_ok last _

section After

variable {α : Type} {m : Machine} (exiting : m.flow.exiting = true)

include exiting

theorem ifExiting_of_exiting (x y : Exec α) :
    (do
      if ← isExiting then x
      else y : Exec α) m = x m := by
  rw [ifExiting_apply, if_pos exiting]

theorem recordRules_after (run : Runner) (index : Nat) (rules : List Rule) :
    run.recordRules index rules m = .ok () m := by
  cases rules with
  | nil => rfl
  | cons r rest =>
      change (if (m.flow.exiting || m.flow.next || m.flow.nextFile) = true
        then _ else _ : Exec Unit) m = _
      rw [if_pos (by rw [exiting, Bool.true_or, Bool.true_or])]
      rfl

theorem endRules_after (run : Runner) (rules : List Rule) :
    run.endRules rules m = .ok () m := by
  cases rules with
  | nil => rfl
  | cons r rest => exact ifExiting_of_exiting exiting _ _

theorem record_after (run : Runner) (p : Program) (text : String) :
    run.record p text m = .ok () m :=
  ifExiting_of_exiting exiting _ _

theorem recordTurn_after (run : Runner) (p : Program) (records : Array String) :
    run.recordTurn p records m = .ok false m :=
  ifExiting_of_exiting exiting _ _

theorem inputs_after (run : Runner) (p : Program) (inputs : List NamedInput) :
    run.inputs p inputs m = .ok () m := by
  cases inputs with
  | nil => rfl
  | cons input rest => exact ifExiting_of_exiting exiting _ _

end After

theorem passes_of_unchanged {α : Type} {x : Exec α} {a : α}
    (h : ∀ m, m.flow.exiting = true → x m = .ok a m) :
    Passes (fun _ => True) x :=
  fun m exiting => ⟨a, m, h m exiting, trivial, exiting, rfl⟩

theorem note_passes (parts : List String) :
    Passes (fun _ => True) (Exec.note parts) := by
  intro m exiting
  obtain ⟨lines, noted⟩ := m.noted_eq parts
  have done : Exec.note parts m = .ok () (m.noted parts) := rfl
  rw [noted] at done
  exact ⟨(), _, done, trivial, exiting, rfl⟩

/-! ## Rules -/

/-- A part of a run exits where the same part of the program that stops is
stopped. -/
def Halts (p : Program) {α : Type} (x y : Exec α) : Prop :=
  Stops p.table true (fun _ => True) x y

section Rules

variable {p : Program}

theorem ifGoing_halts {α : Type} {x y x₁ y₁ : Exec α} (h : Halts p x₁ y₁) :
    Halts p
      (do
        if ← isExiting then x
        else x₁)
      (do
        if ← isExiting then y
        else y₁) := by
  intro m going
  have goes : ¬m.flow.exiting = true := Bool.eq_false_iff.1 going.exiting
  change Ended _ _ _ ((if m.flow.exiting = true then x
    else x₁) m) ((if m.flow.exiting = true then y else y₁) m)
  rw [if_neg goes, if_neg goes]
  exact h m going

theorem setStage_same (stage : Stage) :
    Same p.table Unit (setStage stage) (setStage stage) :=
  same_of_keeps fun _ => ⟨rfl, rfl⟩

theorem attachInput_same (text : Option String) :
    Same p.table Unit (Exec.attachInput text) (Exec.attachInput text) :=
  same_of_keeps fun _ => ⟨rfl, rfl⟩

variable {may : String → Bool} (plain : p.ExitsPlainly may)

include plain

theorem Program.ExitsPlainly.functions : BodiesExitPlainly p.table may := by
  intro name f found
  obtain ⟨inside, rfl⟩ := Program.mem_of_table found
  exact plain.bodies f inside

theorem action_halts {r : Rule} (rule : r ∈ p.rules) :
    Halts p (Stmt.execAll .standard r.action)
      (Stmt.execAll .stopping r.stopping.action) :=
  execAll_standard_stops plain.functions (plain.actions r rule)

theorem testing_same :
    Testing (Same p.table) .standard .stopping (fun x => x.spares may = true)
      where
  toSequential := same_sequential
  test := fun e parts => isTrue_same (runFunction_stops plain.functions)
    (List.all_eq_true.2 parts)
  move := same_of_primitive fun m m' step => by cases step <;> exact ⟨rfl, rfl⟩

theorem trial_same {r : Rule} (rule : r ∈ p.rules) (index : Nat) :
    Same p.table Bool (r.trigger.holds .standard index)
      (r.trigger.holds .stopping index) :=
  Trigger.applies_related (testing_same plain) index r.trigger fun e inside =>
    List.all_eq_true.1 (plain.tests r rule e inside)

theorem beginRules_halts {part : List Rule} (inside : part ⊆ p.rules) :
    Halts p (Runner.standard.beginRules part)
      (Runner.stopping.beginRules (part.map Rule.stopping)) := by
  induction part with
  | nil => exact (same_sequential.pure ()).stops
  | cons r rest ih =>
      obtain ⟨rule, later⟩ := List.cons_subset.1 inside
      rw [List.map_cons, Runner.beginRules, Runner.beginRules,
        Rule.trigger_stopping]
      cases r.trigger with
      | begin =>
          refine (action_halts plain rule).bind
            (fun _ => ifGoing_halts (ih later)) ?_
          intro _ _ m exiting
          rw [ifExiting_of_exiting exiting]
          exact note_passes _ m exiting
      | _ => exact ih later

theorem begin_halts :
    Halts p (Runner.standard.begin p) (Runner.stopping.begin p.stopping) :=
  (setStage_same .begin).andThen fun _ =>
    beginRules_halts plain (List.Subset.refl _)

theorem recordRules_halts {part : List Rule} (inside : part ⊆ p.rules)
    (index : Nat) :
    Halts p (Runner.standard.recordRules index part)
      (Runner.stopping.recordRules index (part.map Rule.stopping)) := by
  induction part generalizing index with
  | nil => exact (same_sequential.pure ()).stops
  | cons r rest ih =>
      obtain ⟨rule, later⟩ := List.cons_subset.1 inside
      intro m going
      rw [List.map_cons, Runner.recordRules, Runner.recordRules,
        Exec.get_bind_apply, Exec.get_bind_apply]
      dsimp only
      split
      · exact .ok () going
      · refine (trial_same plain rule index).andThen (fun applies => ?_) m going
        cases applies with
        | false => exact ih later (index + 1)
        | true =>
            have note : Same p.table Unit (noteRule index) (noteRule index) :=
              same_sequential.primitive (noteRule_primitive index)
            refine note.andThen fun _ => ?_
            refine (action_halts plain rule).bind
              (fun _ => ih later (index + 1)) fun _ _ => ?_
            exact passes_of_unchanged fun _ exiting =>
              recordRules_after exiting _ _ _

theorem record_halts (text : String) :
    Halts p (Runner.standard.record p text)
      (Runner.stopping.record p.stopping text) := by
  refine ifGoing_halts ?_
  have line : Same p.table Unit (Exec.setLine text) (Exec.setLine text) :=
    same_sequential.primitive (Exec.setLine_primitive text)
  have count : Same p.table Unit Exec.countRecord Exec.countRecord :=
    same_sequential.primitive Exec.countRecord_primitive
  refine (setStage_same .main).andThen fun _ => line.andThen fun _ =>
    count.andThen fun _ => ?_
  refine (steer_same (fun f => { f with next := false }) fun _ => rfl).andThen
    fun _ => ?_
  exact recordRules_halts plain (List.Subset.refl _) 0

theorem endRules_halts {part : List Rule} (inside : part ⊆ p.rules) :
    Halts p (Runner.standard.endRules part)
      (Runner.stopping.endRules (part.map Rule.stopping)) := by
  induction part with
  | nil => exact (same_sequential.pure ()).stops
  | cons r rest ih =>
      obtain ⟨rule, later⟩ := List.cons_subset.1 inside
      rw [List.map_cons, Runner.endRules, Runner.endRules,
        Rule.trigger_stopping]
      refine ifGoing_halts ?_
      cases r.trigger with
      | finish =>
          refine (action_halts plain rule).bind
            (fun _ => ifGoing_halts (ih later)) ?_
          intro _ _ m exiting
          rw [ifExiting_of_exiting exiting]
          have done :=
            endRules_after (m := { m with
              flow := { m.flow with exitFromEnd := true } }) exiting .standard
              rest
          exact ⟨(), _, done, trivial, exiting, rfl⟩
      | _ => exact ih later

theorem finish_halts {m : Machine} (functions : m.functions = p.table)
    (restarts : m.flow.atEnd.exiting = false) :
    Ended p.table true (fun _ => True) (runEnd p m)
      (Runner.stopping.finish p.stopping m) := by
  have rules : Halts p (do Runner.standard.endRules p.rules; setStage .done)
      (do Runner.stopping.endRules p.stopping.rules; setStage .done) :=
    (endRules_halts plain (List.Subset.refl _)).bind
      (fun _ => (setStage_same .done).stops) fun _ _ m exiting =>
        ⟨(), { m with stage := .done }, rfl, trivial, exiting, rfl⟩
  exact rules { m with stage := .finish, flow := m.flow.atEnd } ⟨functions,
    restarts⟩

/-! ## Inputs -/

theorem takeRecord_halts (text : String) :
    Halts p (Runner.standard.takeRecord p text)
      (Runner.stopping.takeRecord p.stopping text) := by
  have next : Same p.table Bool
      (do
        if (← get).flow.nextFile then
          modify fun m => { m with flow := { m.flow with nextFile := false } }
          return false
        else return true)
      (do
        if (← get).flow.nextFile then
          modify fun m => { m with flow := { m.flow with nextFile := false } }
          return false
        else return true) := by
    refine same_of_keeps (Exec.Keeps.get_bind fun m => ?_)
    split
    · exact ⟨rfl, rfl⟩
    · exact ⟨rfl, rfl⟩
  refine (record_halts plain text).bind (fun _ => next.stops) ?_
  intro _ _ m exiting
  cases skips : m.flow.nextFile with
  | true =>
      refine ⟨false, { m with flow := { m.flow with nextFile := false } }, ?_,
        trivial, exiting, rfl⟩
      rw [Exec.get_bind_apply, if_pos skips]
      rfl
  | false =>
      refine ⟨true, m, ?_, trivial, exiting, rfl⟩
      rw [Exec.get_bind_apply, if_neg (Bool.eq_false_iff.1 skips)]
      rfl

theorem recordTurn_halts (records : Array String) :
    Halts p (Runner.standard.recordTurn p records)
      (Runner.stopping.recordTurn p.stopping records) := by
  refine ifGoing_halts fun m going => ?_
  rw [Exec.get_bind_apply, Exec.get_bind_apply]
  cases records[m.input.next]? with
  | none => exact .ok false going
  | some text =>
      have advance :
          Same p.table Unit (Exec.setNextRecord (m.input.next + 1))
            (Exec.setNextRecord (m.input.next + 1)) :=
        same_of_keeps fun _ => ⟨rfl, rfl⟩
      exact advance.andThen (fun _ => takeRecord_halts plain text) m going

theorem recordTurns_halts (records : Array String) (left : Nat) :
    Halts p (recordTurns (Runner.standard.recordTurn p records) left)
      (recordTurns (Runner.stopping.recordTurn p.stopping records) left) := by
  induction left with
  | zero => exact (same_sequential.pure ()).stops
  | succ left ih =>
      refine (recordTurn_halts plain records).bind (fun again => ?_)
        fun again _ => ?_
      · cases again with
        | false => exact (same_sequential.pure ()).stops
        | true => exact ih
      · refine passes_of_unchanged (a := ()) fun m exiting => ?_
        cases again with
        | false => rfl
        | true =>
            exact recordTurns_after (recordTurn_after exiting _ p records) left

theorem input_halts (name : String) :
    Halts p (Runner.standard.input p name)
      (Runner.stopping.input p.stopping name) := by
  have filename : Same p.table Unit (modify fun m => { m with
    specials := { m.specials with filename := name } })
      (modify fun m => { m with specials := { m.specials with
        filename := name } }) := same_of_keeps fun _ => ⟨rfl, rfl⟩
  have records : Same p.table (Option (Array String)) Exec.records
      Exec.records := same_sequential.primitive Exec.records_primitive
  refine filename.andThen fun _ => records.andThen fun records => ?_
  exact recordTurns_halts plain (records.getD #[]) (records.getD #[]).size

theorem moreInputs_halts (inputs : List NamedInput) :
    Halts p (Runner.standard.moreInputs p inputs)
      (Runner.stopping.moreInputs p.stopping inputs) := by
  induction inputs with
  | nil => exact (same_sequential.pure ()).stops
  | cons input rest ih =>
      have restart : Same p.table Unit (modify fun m => { m with
        specials := { m.specials with fnr := Number.zero } })
          (modify fun m => { m with
            specials := { m.specials with fnr := Number.zero } }) :=
        same_of_keeps fun _ => ⟨rfl, rfl⟩
      refine ifGoing_halts (restart.andThen fun _ =>
        (attachInput_same _).andThen fun _ => ?_)
      refine (input_halts plain input.name).bind (fun _ => ih) fun _ _ => ?_
      exact passes_of_unchanged fun _ exiting =>
        moreInputs_after exiting _ p rest

theorem inputs_halts (inputs : List NamedInput) :
    Halts p (Runner.standard.inputs p inputs)
      (Runner.stopping.inputs p.stopping inputs) := by
  cases inputs with
  | nil => exact (same_sequential.pure ()).stops
  | cons first rest =>
      refine ifGoing_halts ((input_halts plain first.name).bind
        (fun _ => moreInputs_halts plain rest) fun _ _ => ?_)
      exact passes_of_unchanged fun _ exiting =>
        moreInputs_after exiting _ p rest

theorem opening_halts (inputs : List NamedInput) :
    Halts p (Runner.standard.opening p inputs)
      (Runner.stopping.opening p.stopping inputs) := by
  have rules :
      Halts p (do Runner.standard.begin p; Runner.standard.inputs p inputs)
        (do
          Runner.stopping.begin p.stopping
          Runner.stopping.inputs p.stopping inputs) := by
    refine (begin_halts plain).bind (fun _ => inputs_halts plain inputs)
      fun _ _ => ?_
    exact passes_of_unchanged fun _ exiting => inputs_after exiting _ p inputs
  cases inputs with
  | nil => exact (same_sequential.pure ()).andThen fun _ => rules
  | cons first rest => exact (attachInput_same _).andThen fun _ => rules

end Rules

/-! ## Whole runs -/

/-- A run is what happens before its `END` rules, and then these.  While a
program is exiting, statements, rules, records and inputs are passed over.  If
functions that may exit are called by statements of their own, then a run that
exits before its `END` rules, or in them, leaves the content of the state as it
is when the exit is executed: as if the run were stopped there by a fault. -/
theorem exit_takes_effect_at_once (p : Program) :
    (∀ inputs, runProgram p inputs =
      (do Runner.standard.opening p inputs; runEnd p)) ∧
    (∀ (run : Runner) (m : Machine), m.flow.exiting = true →
      (∀ body, Stmt.execAll run body m = .ok () m) ∧
      (∀ index rules, run.recordRules index rules m = .ok () m) ∧
      (∀ text, run.record p text m = .ok () m) ∧
      (∀ inputs, run.inputs p inputs m = .ok () m) ∧
      ∀ rules, run.endRules rules m = .ok () m) ∧
    ∀ may, p.ExitsPlainly may → ∀ m, m.functions = p.table →
      (m.flow.exiting = false → ∀ inputs,
        Ended p.table true (fun _ => True) (Runner.standard.opening p inputs m)
          (Runner.stopping.opening p.stopping inputs m)) ∧
      (m.flow.atEnd.exiting = false →
        Ended p.table true (fun _ => True) (runEnd p m)
          (Runner.stopping.finish p.stopping m)) := by
  refine ⟨Runner.standard.program_eq p, ?_, ?_⟩
  · intro run m exiting
    have interrupted : m.flow.interrupted = true := by
      simp [Flow.interrupted, exiting]
    exact ⟨fun body => Stmt.execAll_of_interrupted run body interrupted,
      recordRules_after exiting run, record_after exiting run p,
      inputs_after exiting run p, endRules_after exiting run⟩
  · intro may plain m functions
    exact ⟨fun going inputs => opening_halts plain inputs m ⟨functions, going⟩,
      finish_halts plain functions⟩

/-- A function that prints and exits, called by a statement of its own. -/
theorem exit_in_called_function :
    let f : Function :=
      ⟨"f", [], [.print [.string "a"] none, .exit (some (.string "3"))]⟩
    let p : Program :=
      ⟨[⟨.begin, [.expr (.call "f" []), .print [.string "b"] none]⟩], [f]⟩
    let m : Machine := { functions := p.table }
    p.ExitsPlainly (· == "f") ∧
    Ended p.table true (fun _ => True) (Runner.standard.opening p [] m)
      (Runner.stopping.opening p.stopping [] m) ∧
    ((Runner.standard.opening p []).final m).flow.exiting = true ∧
    ((Runner.stopping.opening p.stopping []).final m).output.text = "a\n" := by
  intro f p m
  have plain : p.ExitsPlainly (· == "f") := ⟨by decide, by decide, by decide⟩
  obtain ⟨opening, -⟩ := (exit_takes_effect_at_once p).2.2 _ plain m rfl
  exact ⟨plain, opening rfl [], by decide +kernel, by decide +kernel⟩

/-- An exit in the condition of an `if`: the statement behind the condition is
executed after it. -/
theorem statement_executed_after_exit :
    let f : Function := ⟨"f", [], [.exit none]⟩
    let p : Program :=
      ⟨[⟨.begin,
        [.ifElse (.unary .not (.call "f" [])) (.print [.string "x"] none)
          none]⟩], [f]⟩
    let m : Machine := { functions := p.table }
    ((Runner.stopping.opening p.stopping []).final m).output.text = "" ∧
      ((Runner.standard.opening p []).final m).flow.exiting = true ∧
      ((Runner.standard.opening p []).final m).output.text = "x\n" := by
  decide +kernel

end Awk
