import Awk.Proofs.Limits.Follows
import Awk.Proofs.Records.Evaluation

/-!
# Programs that keep to their records

A program without `getline` and `nextfile` that does not assign `FILENAME`
learns of its main input only through the records that its rules are given:
whatever it evaluates or executes does the same over any other main input,
leaves that input alone and neither leaves it nor renames it.
-/

namespace Awk

open List (Forall₂)

/-- Whether a part reads no line, does not leave the input and does not assign
the name of the input. -/
def Part.keepsToRecord : Part → Bool
  | .expr (.getline _ _) => false
  | .stmt .nextFile => false
  | x => !x.assigns.contains "FILENAME"

def Program.KeepsToRecords (p : Program) : Prop :=
  ∀ x ∈ p.parts, x.keepsToRecord = true

instance (p : Program) : Decidable p.KeepsToRecords := List.decidableBAll _ _

theorem Part.spares_of_keepsToRecord {x : Part} (h : x.keepsToRecord = true) :
    "FILENAME" ∉ x.assigns := by
  unfold Part.keepsToRecord at h
  split at h
  · contradiction
  · contradiction
  · simpa using h

/-! ## Changes beside the input -/

structure Aside (m m' : Machine) : Prop where
  change : Change m m'
  input : m'.input = m.input
  filename : m'.specials.filename = m.specials.filename

instance : Admits Aside :=
  ⟨fun silent => ⟨silent.change, silent.input, silent.filename⟩⟩

structure Confined (m m' : Machine) : Prop where
  effect : Effect m m'
  here : m'.flow.nextFile = true → m.flow.nextFile = true

instance : Leaps Confined where
  write text := ⟨.write text, id⟩
  writeTo target text append := ⟨.writeTo target text append, id⟩
  exitCode n := ⟨.exitCode n, id⟩
  steer f _ here := ⟨.flow f, here⟩
  leap f here := ⟨.flow f, here⟩

theorem setSpecials_aside (f : Specials → Specials)
    (filename : ∀ s, (f s).filename = s.filename) :
    Primitive Aside (modify fun m => { m with specials := f m.specials }) :=
  .modify (fun m => ⟨.specials (f m.specials), rfl, filename m.specials⟩)
    (fun _ => rfl) fun _ _ => rfl

theorem NameKind.ofName_eq_filename {name : String}
    (h : NameKind.ofName name = .text .filename) : name = "FILENAME" := by
  unfold NameKind.ofName at h
  split at h <;> simp_all

theorem assignVariable_aside {name : String} (other : name ≠ "FILENAME")
    (v : Value) :
    Primitive Aside (Exec.assignVariable name v) := by
  apply Exec.assignVariable_of
  · intro s _
    apply setSpecials_aside fun specials => specials.setNumber v.toNumber s
    intro specials
    cases s <;> rfl
  · intro s kind t
    have other : s ≠ .filename := by
      rintro rfl
      exact other (NameKind.ofName_eq_filename kind)
    apply setSpecials_aside fun specials => specials.setText t s
    intro specials
    cases s with
    | filename => exact absurd rfl other
    | _ => rfl

theorem writable_aside {l : Location} (other : l ≠ .variable "FILENAME") :
    Writable Aside l := by
  intro v
  cases l with
  | field index => exact Exec.assignField_primitive index v
  | «variable» name => exact assignVariable_aside (by simpa using other) v
  | element array key => exact Exec.setElement_primitive array key v

structure Beside (m m' : Machine) : Prop where
  limits : m'.limits = m.limits
  functions : m'.functions = m.functions
  input : m'.input = m.input
  filename : m'.specials.filename = m.specials.filename
  here : m'.flow.nextFile = true → m.flow.nextFile = true

instance : IsPreorder Machine Beside where
  refl _ := ⟨rfl, rfl, rfl, rfl, id⟩
  trans _ _ _ h₁ h₂ :=
    ⟨h₂.limits.trans h₁.limits, h₂.functions.trans h₁.functions,
      h₂.input.trans h₁.input, h₂.filename.trans h₁.filename, h₁.here ∘ h₂.here⟩

theorem Change.flow {m m' : Machine} (step : Change m m') :
    m'.flow = m.flow := by
  cases step <;> rfl

theorem Aside.beside {m m' : Machine} (step : Aside m m') : Beside m m' := by
  refine ⟨step.change.advances.1, step.change.functions, step.input,
    step.filename, ?_⟩
  rw [step.change.flow]
  exact id

theorem Confined.beside {m m' : Machine} (step : Confined m m') :
    Beside m m' := by
  obtain ⟨effect, here⟩ := step
  cases effect <;> exact ⟨rfl, rfl, rfl, rfl, here⟩

theorem Move.beside {m m' : Machine} (step : Move m m') : Beside m m' := by
  cases step <;> exact ⟨rfl, rfl, rfl, rfl, id⟩

/-! ## Taking no notice of the input -/

structure Settled (functions : Table Function) (m : Machine) : Prop where
  functions : m.functions = functions
  filename : m.specials.filename = ""
  here : m.flow.nextFile = false

structure Unseen {α : Type} (functions : Table Function) (input : Input)
    (r r' : EStateM.Result Fault Machine α) : Prop where
  same : r' = mapState (·.withInput input) r
  settled : Settled functions (stateOf r)

/-- From settled states, the same happens over any other main input. -/
def Unaware (functions : Table Function) : ExecRelation := fun _ x _ =>
  ∀ m input, Settled functions m →
    Unseen functions input (x m) (x (m.withInput input))

section Unaware

variable {functions : Table Function} {input : Input} {α β : Type}

theorem Settled.beside {m m' : Machine} (h : Settled functions m)
    (beside : Beside m m') : Settled functions m' where
  functions := beside.functions.trans h.functions
  filename := beside.filename.trans h.filename
  here := by
    rw [← Bool.not_eq_true]
    intro asked
    have before := beside.here asked
    rw [h.here] at before
    contradiction

theorem Unseen.mapState {r r' : EStateM.Result Fault Machine α}
    {g g' : Machine → Machine} (h : Unseen functions input r r')
    (same : ∀ m, g' (m.withInput input) = (g m).withInput input)
    (beside : ∀ m, Beside m (g m)) :
    Unseen functions input (Awk.mapState g r) (Awk.mapState g' r') := by
  obtain ⟨rfl, settled⟩ := h
  refine ⟨?_, ?_⟩
  · cases r with
    | ok a m => exact congrArg (EStateM.Result.ok a) (same m)
    | error e m => exact congrArg (EStateM.Result.error e) (same m)
  · rw [stateOf_mapState]
    exact settled.beside (beside _)

theorem unaware_of_primitive {C : Machine → Machine → Prop}
    (hC : ∀ m m', C m m' → Beside m m') {x : Exec α} (hx : Primitive C x) :
    Unaware functions α x x := by
  intro m input settled
  have beside : Beside m (stateOf (x m)) := hx.keeps hC m
  refine ⟨?_, settled.beside beside⟩
  exact hx.withInput (fun m m' step => (hC m m' step).limits)
    (fun m m' step => (hC m m' step).input) m input

theorem Unaware.bind {x₁ x₂ : Exec α} {f₁ f₂ : α → Exec β}
    (hx : Unaware functions α x₁ x₂)
    (hf : ∀ a, Unaware functions β (f₁ a) (f₂ a)) :
    Unaware functions β (x₁ >>= f₁) (x₂ >>= f₂) := by
  intro m input settled
  obtain ⟨same, after⟩ := hx m input settled
  cases result : x₁ m with
  | ok a m' =>
      rw [result] at same after
      rw [Exec.bind_ok result, Exec.bind_ok same]
      exact hf a m' input after
  | error e m' =>
      rw [result] at same after
      rw [Exec.bind_error result, Exec.bind_error same]
      exact ⟨rfl, after⟩

theorem unaware_sequential : Sequential (Unaware functions) Aside where
  bind := Unaware.bind
  primitive := unaware_of_primitive fun _ _ => Aside.beside

theorem exceed_unaware (fault : Exceeded → Fault) (limit : Int) :
    Unaware functions α (Exec.exceed fault limit) (Exec.exceed fault limit) :=
  fun _ _ settled => ⟨rfl, settled⟩

/-! ## Calls -/

theorem noted_withInput (m : Machine) (parts : List String) (input : Input) :
    (m.withInput input).noted parts = (m.noted parts).withInput input := by
  unfold Machine.noted Machine.withInput
  split <;> rfl

theorem noted_beside (m : Machine) (parts : List String) :
    Beside m (m.noted parts) := by
  obtain ⟨lines, noted⟩ := m.noted_eq parts
  rw [noted]
  exact ⟨rfl, rfl, rfl, rfl, id⟩

theorem enter_beside (m : Machine) (f : Function) (bindings : List Binding) :
    Beside m (m.enter f bindings) := by
  obtain ⟨lines, entered⟩ := m.enter_eq f bindings
  rw [entered]
  exact ⟨rfl, rfl, rfl, rfl, id⟩

theorem callBound_unaware {run : BodyRunner} {f : Function}
    (hrun : Unaware functions Unit (run f) (run f)) (bindings : List Binding) :
    Unaware functions Value (callBound run f bindings)
      (callBound run f bindings) := by
  intro m input settled
  have body : Unaware functions Value (bodyValue run f) (bodyValue run f) :=
    hrun.bind fun _ => unaware_sequential.primitive (.view fun _ _ => rfl)
  have inside :=
    body (m.enter f bindings) input (settled.beside (enter_beside m f bindings))
  rw [callBound_apply, callBound_apply, enter_withInput]
  exact inside.mapState (fun _ => rfl) fun _ => ⟨rfl, rfl, rfl, rfl, id⟩

theorem callFunction_unaware {run : BodyRunner} {f : Function}
    (hrun : Unaware functions Unit (run f) (run f)) {args args' : List Argument}
    (hargs : Forall₂ (Argument.Related (Unaware functions)) args args') :
    Unaware functions Value (callFunction run f args)
      (callFunction run f args') := by
  intro m input settled
  by_cases full : m.limits.calls < m.depth + 1
  · have full' : (m.withInput input).limits.calls < (m.withInput input).depth +
        1 := full
    rw [callFunction_refused full, callFunction_refused full']
    exact ⟨congrArg (EStateM.Result.error _) (noted_withInput m _ input),
      settled.beside (noted_beside m _)⟩
  · have bindings :
        Unaware functions (List Binding) (bindingsOf f.params.length args) _ :=
      bindingsOf_related unaware_sequential hargs f.params.length
    have inner :=
      bindings.bind (callBound_unaware hrun) m.deeper input
        (settled.beside ⟨rfl, rfl, rfl, rfl, id⟩)
    have room : ¬(m.withInput input).limits.calls < (m.withInput input).depth +
        1 := full
    rw [callFunction_apply full, callFunction_apply room]
    exact inner.mapState (fun _ => rfl) fun _ => ⟨rfl, rfl, rfl, rfl, id⟩

/-! ## Statements and bodies -/

theorem unaware_looping {parts : List Part}
    (keeps : ∀ x ∈ parts, x.keepsToRecord = true) {run : BodyRunner}
    (hrun : ∀ name f, functions.get? name = some f →
      Unaware functions Unit (run f) (run f)) :
    Looping (Unaware functions) (.limited run) (.limited run)
      (· ∈ parts) Aside Confined where
  toSequential := unaware_sequential
  write := by
    intro e node place assigned l here
    refine writable_aside ?_
    rintro rfl
    exact Part.spares_of_keepsToRecord (keeps _ node)
      (Location.At.mem_assigns assigned here)
  nextRecord := fun node => nomatch keeps _ node
  nextLine := fun node => nomatch keeps _ node
  call := by
    intro name args _ other arguments m input settled
    cases defined : m.functions.get? name with
    | some f =>
        rw [callByName_defined other defined,
          callByName_defined (m := m.withInput input) other defined]
        rw [settled.functions] at defined
        exact callFunction_unaware (hrun name f defined) arguments m input
          settled
    | none =>
        rw [callByName_unknown other defined,
          callByName_unknown (m := m.withInput input) other defined]
        exact unaware_sequential.bind
          (unaware_sequential.primitive (Exec.note_primitive _))
          (fun _ => unaware_sequential.pure _) m input settled
  straight := unaware_of_primitive fun _ _ => Confined.beside
  whole := by
    intro e h m input settled
    unfold evalWhole
    rw [Exec.get_bind_apply, Exec.get_bind_apply]
    change Unseen functions input _
      ((if m.platform.room.fits m.limits.calls m.depth e then e.eval run
        else throw .noRoom : Exec Value) (m.withInput input))
    split
    · exact h m input settled
    · exact ⟨rfl, settled⟩
  whileLoop := by
    intro kind _ _ _ _ test turn m
    exact whileTurns_related unaware_sequential (exceed_unaware _ _) test turn
      m.limits.iterations.toNat m
  doLoop := by
    intro _ _ _ _ test turn m
    exact doTurns_related unaware_sequential (exceed_unaware _ _) test turn
      m.limits.iterations.toNat m
  keyVariable := by
    intro name array body node
    refine writable_aside ?_
    rintro ⟨⟩
    exact Part.spares_of_keepsToRecord (keeps _ node) (List.mem_singleton.2 rfl)
  keyLoop := by
    intro id _ _ _ keys writable turn m
    exact keyTurns_related unaware_sequential (exceed_unaware _ _) id writable
      turn m.limits.iterations.toNat keys m
  skip := fun node => nomatch keeps _ node

theorem runBody_unaware {parts : List Part}
    (keeps : ∀ x ∈ parts, x.keepsToRecord = true)
    (covers : Covers parts functions) (left : Nat) {name : String}
    {f : Function} (defined : functions.get? name = some f) :
    Unaware functions Unit (runBody left f) (runBody left f) := by
  induction left generalizing name f with
  | zero => exact fun m => exceed_unaware .calls m.limits.calls m
  | succ left ih =>
      exact Stmt.execAll_related (unaware_looping keeps fun name f => ih) f.body
        (covers name f defined)

end Unaware

/-! ## Rules -/

section Rules

variable {p : Program} (keeps : p.KeepsToRecords)

include keeps

theorem program_unaware :
    Looping (Unaware p.table) .standard .standard
      (· ∈ p.parts) Aside Confined := by
  refine unaware_looping keeps fun name f defined m => ?_
  exact runBody_unaware keeps p.covers m.limits.calls.toNat defined m

theorem rules_unaware :
    RuleWise (Unaware p.table) p.rules .standard .standard
      (· ∈ p.parts) Aside Confined where
  toSequential := unaware_sequential
  tests := fun _ rule _ test _ inside => p.mem_parts_of_test rule test inside
  test :=
    fun e parts => isTrue_related (program_unaware keeps).toStraight e parts
  action := fun r rule => Stmt.execAll_related (program_unaware keeps) r.action
    fun _ inside => p.mem_parts_of_action rule inside
  straight := (program_unaware keeps).straight
  move := unaware_of_primitive fun _ _ => Move.beside

theorem begin_unaware : Unaware p.table Unit (runBegin p) (runBegin p) :=
  begin_related (rules_unaware keeps) (List.Subset.refl _)

theorem record_unaware (text : String) :
    Unaware p.table Unit (runRecord p text) (runRecord p text) := by
  have count : Primitive Aside Exec.countRecord :=
    setSpecials_aside (fun s => { s with nr := s.nr + Number.one,
                                         fnr := s.fnr + Number.one }) fun _ =>
                                           rfl
  exact (rules_unaware keeps).steps.record (unaware_sequential.primitive count)
    (placed_of_subset (List.Subset.refl _) 0) text

theorem finish_unaware : Unaware p.table Unit (runEnd p) (runEnd p) :=
  finish_related (rules_unaware keeps) (List.Subset.refl _)

end Rules

end Awk
