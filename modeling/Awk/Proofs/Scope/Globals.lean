import Awk.Proofs.Parameters
import Awk.Proofs.Scope.Path

/-!
# What is local and what is global

The names of a function's parameters are taken over by its call and given back
at its end.  So a write to a name belongs to the innermost active call that has
a parameter of this name, be it the function that writes or one of its callers,
and it is a write to the global name only if there is no such call.  When all
calls have returned, a name stands for what the last write of the second kind
made of it.
-/

namespace Awk

def hidden (calls : List ActiveCall) (x : String) : Bool :=
  calls.any (·.function.params.contains x)

theorem hidden_cons (c : ActiveCall) (rest : List ActiveCall) (x : String) :
    hidden (c :: rest) x = true ↔ x ∈ c.function.params ∨
    hidden rest x = true := by
  simp only [hidden, List.any_cons, Bool.or_eq_true, List.contains_iff_mem]

namespace Names

/-- What the names stand for when some calls have given back their parameters,
the first one first. -/
def unwound (n : Names) : List ActiveCall → Names
  | [] => n
  | c :: rest =>
      (n.setAll (c.before.names.save c.function.params).reverse).unwound rest

variable {n n' : Names} {calls : List ActiveCall} {x : String}

theorem slot_unwound_congr (calls : List ActiveCall)
    (h : n.slot x = n'.slot x) :
    (n.unwound calls).slot x = (n'.unwound calls).slot x := by
  induction calls generalizing n n' with
  | nil => exact h
  | cons c rest ih =>
      apply ih
      simp only [slot_restore, h]

theorem slot_unwound_of_hidden (h : hidden calls x = true) :
    (n.unwound calls).slot x = (n'.unwound calls).slot x := by
  induction calls generalizing n n' with
  | nil => contradiction
  | cons c rest ih =>
      rcases (hidden_cons c rest x).1 h with param | later
      · apply slot_unwound_congr rest
        simp only [slot_restore, if_pos param]
      · exact ih later

theorem slot_unwound_of_not_hidden (h : hidden calls x = false) :
    (n.unwound calls).slot x = n.slot x := by
  induction calls generalizing n with
  | nil => rfl
  | cons c rest ih =>
      rw [← Bool.not_eq_true, hidden_cons, not_or, Bool.not_eq_true] at h
      refine (ih h.2).trans ?_
      rw [slot_restore, if_neg h.1]

end Names

/-! ## Writes to global names -/

/-- What the last write to a global name made of it: no active call had a
parameter of this name. -/
def lastGlobal? (x : String) : List Write → Option Binding
  | [] => none
  | w :: earlier =>
      if x = w.name ∧ hidden w.calls x = false then some w.binding
        else lastGlobal? x earlier

variable {start m m' : Machine} {log : List Write} {calls : List ActiveCall}
    {x : String}

/-- A write shows when some calls have returned, unless one of them has a
parameter of the name. -/
theorem Writes.slot_unwound {name : String} {b : Binding}
    (step : Writes m name b m') (calls : List ActiveCall) (x : String) :
    (m'.names.unwound calls).slot x =
      if x = name ∧ hidden calls x = false then b.slot
      else (m.names.unwound calls).slot x := by
  cases h : hidden calls x with
  | true =>
      rw [if_neg fun both => nomatch both.2]
      exact Names.slot_unwound_of_hidden h
  | false =>
      rw [Names.slot_unwound_of_not_hidden h,
        Names.slot_unwound_of_not_hidden h, step.slot]
      simp only [and_true]

theorem Machine.slot_enter_unwound (m : Machine) (f : Function)
    (bindings : List Binding) (calls : List ActiveCall) (x : String) :
    ((m.enter f bindings).names.unwound (⟨f, m⟩ :: calls)).slot x =
      (m.names.unwound calls).slot x := by
  apply Names.slot_unwound_congr calls
  rw [Names.slot_restore, m.names_enter]
  by_cases param : x ∈ f.params
  · rw [if_pos param]
  · rw [if_neg param]
    apply Names.slot_setAll_of_not_mem
    rwa [map_fst_pairUp]

theorem Reaches.slot_unwound (path : Reaches start log calls m) (x : String) :
    (m.names.unwound calls).slot x =
        ((lastGlobal? x log).map Binding.slot).getD (start.names.slot x) := by
  -- Only writes to global names change what is left when all calls have
  -- returned.
  induction path with
  | start => rfl
  | write path step ih =>
      rw [step.slot_unwound, lastGlobal?, ih]
      split <;> rfl
  | other path same ih =>
      exact (Names.slot_unwound_congr _ (same.slot x)).trans ih
  | enter f bindings path ih =>
      exact (Machine.slot_enter_unwound _ f bindings _ x).trans ih
  | leave path ih => exact ih

theorem assignVariable_writes (ordinary : NameKind.ofName x = .ordinary)
    {v : Value} (assigned : Exec.assignVariable x v m = .ok () m') :
    Writes m x (.scalar v) m' := by
  unfold Exec.assignVariable at assigned
  rw [ordinary] at assigned
  change (if m.names.arrays.contains x = true then Exec.fatal (.arrayAsScalar x)
    else _ : Exec Unit) m = _ at assigned
  by_cases array : m.names.arrays.contains x = true
  · rw [if_pos array] at assigned
    contradiction
  · rw [if_neg array] at assigned
    cases assigned
    exact .scalar v (Bool.eq_false_iff.2 array)

theorem assign_eval_eq_ok {run : BodyRunner} {e : Expr} {v : Value}
    (evaluated : (Expr.assign none (.variable x) e).eval run m = .ok v m') :
    ∃ m₁, e.eval run m = .ok v m₁ ∧ Exec.assignVariable x v m₁ = .ok () m' := by
  simp only [Expr.eval, Place.locate, pure_bind] at evaluated
  obtain ⟨v', m₁, value, rest⟩ := Exec.bind_eq_ok.1 evaluated
  obtain ⟨⟨⟩, m₂, assigned, returned⟩ := Exec.bind_eq_ok.1 rest
  cases returned
  exact ⟨m₁, value, assigned⟩

theorem Reaches.assign (path : Reaches start log calls m) {run : BodyRunner}
    (occurs : run.Occurs) (ordinary : NameKind.ofName x = .ordinary) {e : Expr}
    {v : Value} (evaluated : (Expr.assign none (.variable x) e).eval run m =
      .ok v m') :
    ∃ more, (∀ w ∈ more, calls <:+ w.calls) ∧
      Reaches start (⟨calls, x, .scalar v⟩ :: (more ++ log)) calls m' := by
  obtain ⟨m₁, value, assigned⟩ := assign_eval_eq_ok evaluated
  have before := (path.continues run occurs).1 e
  rw [Exec.final_ok value] at before
  obtain ⟨more, inside, path⟩ := before
  exact ⟨more, inside, path.write (assignVariable_writes ordinary assigned)⟩

/-- What is evaluated, executed or run continues a path, and on it an assignment
is a write.  What a name stands for after all active calls have returned is
decided by the last write to it during which no active call had a parameter of
this name.  A write shows until the first call returns that has such a
parameter, no matter whether this is the function that assigns or one of its
callers. -/
theorem assignment_global_unless_hidden {start m : Machine} {log : List Write}
    {calls : List ActiveCall} (path : Reaches start log calls m) :
    (∀ p inputs options,
      Reaches.ContinuesTo start log calls
        ((runLoaded p inputs options).final m)) ∧
    (∀ f bindings, Reaches start log (⟨f, m⟩ :: calls) (m.enter f bindings)) ∧
    (∀ run : BodyRunner, run.Occurs →
      (∀ e : Expr, Reaches.ContinuesTo start log calls ((e.eval run).final m)) ∧
      ∀ s : Stmt, Reaches.ContinuesTo start log calls
        ((s.exec (.limited run)).final m)) ∧
    ∀ x, NameKind.ofName x = .ordinary →
      (m.names.unwound calls).slot x =
        ((lastGlobal? x log).map Binding.slot).getD (start.names.slot x) ∧
      (∀ run : BodyRunner, run.Occurs → ∀ e v m',
        (Expr.assign none (.variable x) e).eval run m = .ok v m' →
        ∃ more, (∀ w ∈ more, calls <:+ w.calls) ∧
          Reaches start (⟨calls, x, .scalar v⟩ :: (more ++ log)) calls m') ∧
      ∀ v m', Exec.assignVariable x v m = .ok () m' →
        Reaches start (⟨calls, x, .scalar v⟩ :: log) calls m' ∧
        ∀ inner, inner <+: calls →
          (m'.names.unwound inner).slot x =
            if hidden inner x then (m.names.unwound inner).slot x
            else (Binding.scalar v).slot := by
  refine ⟨?_, fun f bindings => path.enter f bindings, path.continues, ?_⟩
  · intro p inputs options
    exact runLoaded_leads p inputs options m start log calls path
  · intro x ordinary
    refine ⟨path.slot_unwound x,
      fun run occurs e v m' => path.assign occurs ordinary, ?_⟩
    intro v m' assigned
    have step := assignVariable_writes ordinary assigned
    refine ⟨path.write step, fun inner _ => ?_⟩
    rw [step.slot_unwound]
    cases hidden inner x <;> simp

/-- A function that is called by another one assigns a name that is no parameter
of either. -/
theorem assignment_outlives_two_calls :
    let start := startMachine {} {}
    let f : Function := ⟨"f", ["y"], [.expr (.call "g" [])]⟩
    let g : Function :=
      ⟨"g", [], [.expr (.assign none (.variable "x") (.string "5"))]⟩
    let first := start.enter f [.scalar (.text "1")]
    let calls : List ActiveCall := [⟨g, first⟩, ⟨f, start⟩]
    let m' := (Exec.assignVariable "x" (.text "5")).final (first.enter g [])
    Reaches start [⟨calls, "x", .scalar (.text "5")⟩] calls m' ∧
    (m'.names.unwound calls).slot "x" = (Binding.scalar (.text "5")).slot := by
  intro start f g first calls m'
  have path : Reaches start [] calls (first.enter g []) :=
    (Reaches.start.enter f [.scalar (.text "1")]).enter g []
  obtain ⟨-, -, -, scalar⟩ := assignment_global_unless_hidden path
  obtain ⟨path', shown⟩ := (scalar "x" rfl).2.2 (.text "5") m' rfl
  exact ⟨path', shown calls List.prefix_rfl⟩

/-- If the caller has a parameter of the assigned name, the global name is left
alone. -/
theorem assignment_lost_in_parameter_of_caller :
    let f : Function := ⟨"f", ["x"], [.expr (.call "g" [])]⟩
    let g : Function :=
      ⟨"g", [], [.expr (.assign none (.variable "x") (.string "5"))]⟩
    let p : Program :=
      ⟨[⟨.begin, [.expr (.call "f" [.string "1"]),
        .print [.read (.variable "x")] none]⟩], [f, g]⟩
    let m := (runLoaded p [] {}).final (startMachine {} {})
    m.names.slot "x" = ⟨none, none⟩ ∧ m.output.text = "\n" := by
  decide +kernel

end Awk
