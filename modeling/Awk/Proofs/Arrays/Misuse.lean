import Awk.Proofs.Scope.Aliases

/-!
# Scalars that are used as arrays

All operations on arrays get at the array in the same way, and a name that
stands for a scalar other than the empty text is refused there, before anything
has changed.  The scalars that are looked at are those of the table of names.
Special variables are kept elsewhere, so they are never refused: such a name
becomes an array and keeps its scalar value.
-/

namespace Awk

abbrev refusal {α : Type} (x : String) (m : Machine) :
    EStateM.Result Fault Machine α :=
  .error (.fatal (.scalarAsArray x)) m

/-- Every use of a name as an array is refused, in the state in which its
operands have been evaluated. -/
structure RefusesArray (m : Machine) (x : String) : Prop where
  use : Exec.useArray x m = refusal x m
  read : ∀ key, Exec.getElement x key m = refusal x m
  write : ∀ key v, Exec.setElement x key v m = refusal x m
  remove : ∀ key, Exec.deleteElement x key m = refusal x m
  clear : Exec.clearArray x m = refusal x m
  deleteAll : ∀ run, (Stmt.delete x none).exec run m = refusal x m
  deleteAt :
    ∀ (run : Runner) (keys : List Expr) (parts : List String) (m₀ : Machine),
    (keys.mapM (fun e => do Exec.textOf (← evalWhole run.services e)) :
      Exec (List String)) m₀ = .ok parts m →
    (Stmt.delete x (some keys)).exec run m₀ = refusal x m
  forIn : ∀ run name body, (Stmt.forIn name x body).exec run m = refusal x m
  split : ∀ (s target : Argument) (rest : List Argument) (text : String)
    (parts : List String) (m₀ m₁ : Machine), target.name = some x →
    s.text m₀ = .ok text m₁ → Builtin.pieces text rest.head? m₁ = .ok parts m →
    Builtin.split.run (s :: target :: rest) m₀ = refusal x m
  groups : ∀ (s p target : Argument) (rest : List Argument)
    (text pattern : String) (found : Option Regex.Pattern) (m₀ m₁ m₂ : Machine),
    target.name = some x → s.text m₀ = .ok text m₁ →
    p.patternText m₁ = .ok pattern m₂ → Exec.regex? pattern m₂ = .ok found m →
    Builtin.match.run (s :: p :: target :: rest) m₀ = refusal x m

variable {m m' : Machine} {x : String} {v : Value}

theorem refusesArray_of_use (use : Exec.useArray x m = refusal x m) :
    RefusesArray m x where
  use := use
  read _ := Exec.bind_error use _
  write _ _ := Exec.bind_error use _
  remove _ := Exec.bind_error use _
  clear := Exec.bind_error use _
  deleteAll run := by
    rw [Stmt.exec]
    exact Exec.bind_error use _
  deleteAt run keys parts m₀ evaluated := by
    rw [Stmt.exec, runDelete]
    refine (Exec.bind_ok evaluated _).trans ?_
    exact Exec.bind_error use _
  forIn run name body := by
    rw [Stmt.exec]
    exact Exec.bind_error use _
  split s target rest text parts m₀ m₁ named first second := by
    rw [Builtin.run, Builtin.runSplit, named]
    simp only
    rw [Exec.bind_ok first, Exec.bind_ok second]
    exact Exec.bind_error use _
  groups s p target rest text pattern found m₀ m₁ m₂ named first second
    looked := by
    have stored (text : Array Char) (found : Option Regex.Match) :
        Builtin.storeGroups text found (some target) m = refusal x m := by
      rw [Builtin.storeGroups, named]
      exact Exec.bind_error use _
    rw [Builtin.run, Builtin.runMatch, Exec.bind_ok first, Exec.bind_ok second,
      Exec.bind_ok looked]
    exact Exec.bind_error (stored _ _) _

theorem scalars_of_readVariable (ordinary : NameKind.ofName x = .ordinary)
    (scalar : Exec.readVariable x m = .ok v m') :
    m.names.arrays.get? x = none ∧ (m.names.scalars.get? x).getD Value.unset =
      v := by
  unfold Exec.readVariable at scalar
  rw [ordinary] at scalar
  change (if m.names.arrays.contains x = true then Exec.fatal (.arrayAsScalar x)
    else _ : Exec Value) m = _ at scalar
  by_cases array : m.names.arrays.contains x = true
  · rw [if_pos array] at scalar
    contradiction
  · rw [if_neg array] at scalar
    cases scalar
    rw [Table.contains_eq_isSome, Bool.not_eq_true, Option.isSome_eq_false_iff,
      Option.isNone_iff_eq_none] at array
    exact ⟨array, rfl⟩

theorem refusesArray_of_scalar (ordinary : NameKind.ofName x = .ordinary)
    (scalar : Exec.readVariable x m = .ok v m') (filled : v ≠ .text "") :
    RefusesArray m x := by
  obtain ⟨noArray, read⟩ := scalars_of_readVariable ordinary scalar
  have refused : m.names.useArray x = .error (.scalarAsArray x) := by
    cases stored : m.names.scalars.get? x with
    | none =>
        rw [stored] at read
        exact absurd read.symm filled
    | some w =>
        obtain rfl : w = v := by simpa [stored] using read
        simp [Names.useArray, noArray, stored, filled]
  exact refusesArray_of_use (useArray_of_error refused)

/-! ## Special variables -/

/-- A special name is taken for an array whatever its scalar value is, and has
both from then on. -/
theorem useArray_special (special : NameKind.ofName x ≠ .ordinary)
    (unbound : m.names.scalars.get? x = none)
    (scalar : Exec.readVariable x m = .ok v m') :
    ∃ id names, Exec.useArray x m = .ok id { m with names := names } ∧
    names.arrays.get? x = some id ∧
      Exec.readVariable x { m with names := names } = .ok v { m with
        names := names } := by
  have kept (names : Names) : Exec.readVariable x { m with
    names := names } = .ok v { m with names := names } := by
    unfold Exec.readVariable at scalar ⊢
    cases kind : NameKind.ofName x with
    | ordinary => contradiction
    | _ =>
        rw [kind] at scalar
        cases scalar
        rfl
  cases array : m.names.arrays.get? x with
  | some id =>
      have used : m.names.useArray x = .ok (m.names, id) := by
        simp [Names.useArray, array]
      exact ⟨id, m.names, useArray_of_ok used, array, kept _⟩
  | none =>
      have used : m.names.useArray x = .ok (m.names.newArray x) := by
        simp [Names.useArray, array, unbound]
      exact ⟨_, _, useArray_of_ok used, m.names.arrays_newArray_self x, kept _⟩

/-! ## Special names stay out of the table -/

theorem Machine.scalars_enter_of_not_mem {f : Function} (other : x ∉ f.params)
    (bindings : List Binding) :
    (m.enter f bindings).names.scalars.get? x = m.names.scalars.get? x := by
  have kept : (m.enter f bindings).names.slot x = m.names.slot x := by
    rw [names_enter]
    exact Names.slot_setAll_of_not_mem _ (by rwa [map_fst_pairUp])
  exact congrArg Slot.scalar kept

theorem Machine.scalars_leave {before : Machine} (f : Function)
    (unbound : before.names.scalars.get? x = none)
    (given : x ∉ f.params → m.names.scalars.get? x = none) :
    (before.leave f m).names.scalars.get? x = none := by
  have restored := congrArg Slot.scalar
    (m.names.slot_restore before.names f.params x)
  refine restored.trans ?_
  split
  · exact unbound
  · next other => exact given other

def SparesSpecials (m m' : Machine) : Prop :=
  ∀ x, NameKind.ofName x ≠ .ordinary → m.names.scalars.get? x = none →
    m'.names.scalars.get? x = none

instance : IsPreorder Machine SparesSpecials where
  refl _ _ _ := id
  trans _ _ _ first second x special unbound :=
    second x special (first x special unbound)

theorem Change.sparesSpecials (step : Change m m') : SparesSpecials m m' := by
  intro x special unbound
  cases step with
  | scalar name v ordinary free =>
      have other : x ≠ name := by
        rintro rfl
        exact special ordinary
      simpa [other] using unbound
  | newArray name free => simp [Names.newArray, unbound]
  | _ => exact unbound

theorem sparesSpecials_along : Along SparesSpecials where
  change := Change.sparesSpecials
  effect step _ _ unbound := by cases step <;> exact unbound
  move step _ _ unbound := by cases step <;> exact unbound
  shift step _ _ unbound := by cases step <;> exact unbound
  nest inner := inner
  call {m m'} f bindings body x special unbound := by
    apply Machine.scalars_leave f unbound
    intro other
    apply body x special
    exact (Machine.scalars_enter_of_not_mem other bindings).trans unbound

/-- An ordinary name whose scalar is not the empty text is refused as an array
in every operation, and nothing changes.  A special name is accepted: it gets an
array and has its scalar value beside it.  It could be refused only because of a
scalar in the table of names, where no run, expression or statement puts one
under a special name, nor a call without a parameter of this name. -/
theorem scalar_refused_as_array_unless_special (x : String) :
    (NameKind.ofName x = .ordinary →
      ∀ m v, Exec.readVariable x m = .ok v m → v ≠ .text "" →
      RefusesArray m x) ∧
    (NameKind.ofName x ≠ .ordinary →
      (∀ p inputs options host,
        ((runLoaded p inputs options).final
          (startMachine options host)).names.scalars.get? x = none) ∧
      ∀ m, m.names.scalars.get? x = none →
        (∀ v, Exec.readVariable x m = .ok v m →
          ∃ id names, Exec.useArray x m = .ok id { m with names := names } ∧
          names.arrays.get? x = some id ∧
            Exec.readVariable x { m with names := names } = .ok v { m with
              names := names }) ∧
        (∀ run : BodyRunner, run.Occurs →
          (∀ e : Expr, ((e.eval run).final m).names.scalars.get? x = none) ∧
          ∀ s : Stmt, ((s.exec (.limited run)).final m).names.scalars.get? x =
            none) ∧
        ∀ f bindings, x ∉ f.params → (m.enter f bindings).names.scalars.get? x =
          none) := by
  constructor
  · intro ordinary m v scalar filled
    exact refusesArray_of_scalar ordinary scalar filled
  · intro special
    constructor
    · intro p inputs options host
      have spares : Exec.Keeps SparesSpecials (runLoaded p inputs options) :=
        sparesSpecials_along.runLoaded_keeps p inputs options fun _ _ _ => id
      exact spares _ x special rfl
    · intro m unbound
      refine ⟨fun v scalar => useArray_special special unbound scalar, ?_, ?_⟩
      · intro run occurs
        constructor
        · intro e
          exact sparesSpecials_along.eval_keeps run occurs e m x special unbound
        · intro s
          exact sparesSpecials_along.exec_keeps run occurs s m x special unbound
      · intro f bindings other
        exact (Machine.scalars_enter_of_not_mem other bindings).trans unbound

/-- A name that holds a word is refused as the target of a split, and as any
other array. -/
theorem name_of_word_refused_as_array :
    let m := (Exec.assignVariable "x" (.text "word")).final (startMachine {} {})
    Exec.readVariable "x" m = .ok (.text "word") m ∧ RefusesArray m "x" := by
  intro m
  have read : Exec.readVariable "x" m = .ok (.text "word") m := rfl
  obtain ⟨refused, -⟩ := scalar_refused_as_array_unless_special "x"
  exact ⟨read, refused (by decide) m _ read (by decide)⟩

/-- The number of records is a scalar that is not empty, and its name is
accepted for an array all the same. -/
theorem record_number_taken_for_array :
    let p : Program :=
      ⟨[⟨.begin,
        [.expr (.assign none (.element "NR" [.string "k"]) (.string "v")),
          .print [.read (.element "NR" [.string "k"])] none]⟩], []⟩
    let m := (runLoaded p [] {}).final (startMachine {} {})
    (∃ n, Exec.readVariable "NR" (startMachine {} {}) =
      .ok (.number n) (startMachine {} {})) ∧
    (∃ n, Exec.readVariable "NR" m = .ok (.number n) m) ∧
    m.names.arrays.contains "NR" = true ∧ m.output.text = "v\n" := by
  intro p m
  refine ⟨⟨_, rfl⟩, ⟨_, rfl⟩, ?_, ?_⟩
  · decide +kernel
  · decide +kernel

end Awk
