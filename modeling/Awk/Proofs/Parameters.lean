import Awk.Proofs.Call
import Awk.Proofs.Names
import Awk.Proofs.Source.Parameters

/-!
# Parameters are bound and restored

`Passed` says how the arguments of a call are evaluated: from left to right,
each in the state that the ones before it left behind, with a bare name of an
array standing for that array.  Nothing is bound before all of them are
evaluated.  The body then starts with the parameters bound to what was passed,
and after the call they stand for what they stood for when the last argument had
been evaluated.
-/

namespace Awk

/-! ## Evaluating arguments -/

def Expr.passedArray? (e : Expr) (m : Machine) : Option ArrayId :=
  match e with
  | .read (.variable name) => m.names.arrays.get? name
  | _ => none

/-- Arguments, evaluated from left to right for so many parameters, and the
state they lead to. -/
inductive Passed (run : Services) : (params : Nat) → List Expr → Machine →
    List Binding → Machine → Prop
  | done {params : Nat} {m : Machine} : Passed run params [] m [] m
  | array {params : Nat} {e : Expr} {id : ArrayId} {rest : List Expr}
      {bindings : List Binding} {m s : Machine}
      (named : e.passedArray? m = some id)
      (later : Passed run params rest m bindings s) :
      Passed run (params + 1) (e :: rest) m (.array id :: bindings) s
  | value {params : Nat} {e : Expr} {v : Value} {rest : List Expr}
      {bindings : List Binding} {m m' s : Machine}
      (unnamed : params = 0 ∨ e.passedArray? m = none)
      (evaluated : e.eval run m = .ok v m')
      (later : Passed run (params - 1) rest m' bindings s) :
      Passed run params (e :: rest) m (.scalar v :: bindings) s

variable {run : Services}

theorem Expr.argument_value (e : Expr) :
    (e.argument run).value = e.eval run := by
  cases e with
  | read place => simp only [Expr.argument, Expr.eval]
  | _ => rfl

theorem Expr.argument_array? (e : Expr) (m : Machine) :
    (e.argument run).array? m = .ok (e.passedArray? m) m := by
  cases e with
  | read place => cases place <;> rfl
  | _ => rfl

theorem Expr.argument_binding (e : Expr) (hasParam : Bool) (m : Machine) :
    (e.argument run).binding hasParam m =
      match (if hasParam then e.passedArray? m else none) with
      | some id => .ok (.array id) m
      | none => (e.eval run >>= fun v => pure (.scalar v)) m := by
  cases hasParam with
  | false =>
      rw [← Expr.argument_value]
      rfl
  | true =>
      refine (Exec.bind_ok (Expr.argument_array? e m) _).trans ?_
      rw [← Expr.argument_value]
      simp only [if_true]
      cases e.passedArray? m <;> rfl

/-- Evaluating the arguments of a call succeeds exactly if they can be
passed. -/
theorem bindingsOf_eq_ok {params : Nat} {args : List Expr} {m s : Machine}
    {bindings : List Binding} :
    bindingsOf params (Expr.arguments run args) m = .ok bindings s ↔
      Passed run params args m bindings s := by
  constructor
  · intro h
    induction args generalizing params m bindings with
    | nil =>
        simp only [Expr.arguments] at h
        cases h
        exact .done
    | cons e rest ih =>
        rw [Expr.arguments_cons] at h
        obtain ⟨b, m', first, h⟩ := Exec.bind_eq_ok.1 h
        obtain ⟨bs, s', later, h⟩ := Exec.bind_eq_ok.1 h
        cases h
        rw [Expr.argument_binding] at first
        split at first
        next id named =>
          cases first
          cases params with
          | zero => contradiction
          | succ params => exact .array (by simpa using named) (ih later)
        next unnamed =>
          obtain ⟨v, m'', evaluated, first⟩ := Exec.bind_eq_ok.1 first
          cases first
          refine .value ?_ evaluated (ih later)
          rcases Nat.eq_zero_or_pos params with zero | positive
          · exact .inl zero
          · exact .inr (by simpa [positive] using unnamed)
  · intro h
    induction h with
    | done =>
        simp only [Expr.arguments]
        rfl
    | array named later ih =>
        rw [Expr.arguments_cons]
        refine Exec.bind_eq_ok.2 ⟨_, _, ?_, Exec.bind_ok ih _⟩
        simp [Expr.argument_binding, named]
    | @value params e v rest bindings m m' s unnamed evaluated later ih =>
        have unnamed : (if decide (0 < params) then e.passedArray? m
            else none) = none := by
          rcases unnamed with zero | none
          · simp [zero]
          · simp [none]
        rw [Expr.arguments_cons]
        refine Exec.bind_eq_ok.2 ⟨_, _, ?_, Exec.bind_ok ih _⟩
        rw [Expr.argument_binding, unnamed]
        exact Exec.bind_ok evaluated _

/-! ## Binding parameters -/

theorem map_fst_pairUp (params : List String) (bindings : List Binding) :
    (pairUp params bindings).map Prod.fst = params := by
  induction params generalizing bindings with
  | nil => rfl
  | cons x rest ih =>
      cases bindings with
      | nil => exact congrArg (x :: ·) (ih [])
      | cons b bindings => exact congrArg (x :: ·) (ih bindings)

theorem mem_pairUp {params : List String} {bindings : List Binding} {i : Nat}
    {x : String} (h : params[i]? = some x) :
    (x, (bindings[i]?.getD (.scalar Value.unset)).slot) ∈
      pairUp params bindings := by
  induction params generalizing bindings i with
  | nil => contradiction
  | cons first rest ih =>
      cases bindings with
      | nil =>
          cases i with
          | zero =>
              cases h
              exact List.mem_cons_self
          | succ i =>
              have later : (x, (([] : List Binding)[i]?.getD
                  (.scalar Value.unset)).slot) ∈ pairUp rest [] := ih h
              exact List.mem_cons_of_mem _ later
      | cons b bindings =>
          cases i with
          | zero =>
              cases h
              exact List.mem_cons_self
          | succ i => exact List.mem_cons_of_mem _ (ih h)

theorem slot_enter {f : Function} (distinct : f.params.Nodup) (m : Machine)
    (bindings : List Binding) {i : Nat} {x : String}
    (h : f.params[i]? = some x) :
    (m.enter f bindings).names.slot x =
      (bindings[i]?.getD (.scalar Value.unset)).slot := by
  rw [Machine.names_enter]
  refine Names.slot_setAll_of_mem ?_ (mem_pairUp h)
  rw [map_fst_pairUp]
  exact distinct

theorem slot_leave {f : Function} (before after : Machine) {x : String}
    (h : x ∈ f.params) :
    (before.leave f after).names.slot x = before.names.slot x := by
  refine (Names.slot_restore after.names before.names f.params x).trans ?_
  rw [if_pos h]

/--
Let the arguments of a call of a parsed function be evaluated in the scope of
the caller, leading to a state `s`.  Then the call is a run of the body from a
state where each parameter is bound to what was passed in its place, and where
nothing was passed to the empty text; and whatever the body does, and whether it
ends with a value or with a fault, every parameter name stands afterwards for
what it stood for in `s`, as a scalar and as an array.
-/
theorem call_binds_and_restores_parameters {source : String} {nesting : Nat}
    {p : Program} (parsed : Program.parse source nesting = .ok p) {f : Function}
    (defined : f ∈ p.functions) (run : Services) {args : List Expr}
    {bindings : List Binding} {m s : Machine}
    (room : m.depth + 1 ≤ m.limits.calls)
    (passed : Passed run f.params.length args m.deeper bindings s) :
    callFunction run.body f (Expr.arguments run args) m =
        mapState (fun after => (s.leave f after).shallower)
          (bodyValue run.body f (s.enter f bindings)) ∧
      (∀ (i : Nat) (x : String), f.params[i]? = some x →
        (s.enter f bindings).names.slot x =
          (bindings[i]?.getD (.scalar (.text ""))).slot) ∧
      ∀ x ∈ f.params,
        ((callFunction run.body f (Expr.arguments run args)).final m).names.slot
          x =
          s.names.slot x := by
  have distinct := Program.parse_params_nodup parsed defined
  have whole : callFunction run.body f (Expr.arguments run args) m =
      mapState (fun after => (s.leave f after).shallower)
        (bodyValue run.body f (s.enter f bindings)) := by
    rw [callFunction_apply (by omega), Exec.bind_ok (bindingsOf_eq_ok.2 passed),
      callBound_apply]
    cases bodyValue run.body f (s.enter f bindings) <;> rfl
  refine ⟨whole, fun i x h => slot_enter distinct s bindings h, fun x h => ?_⟩
  unfold Exec.final
  rw [whole, stateOf_mapState]
  exact slot_leave s _ h

/-- A call that passes the array `b` for `a` and the scalar `a` for `b`. -/
theorem exchanged_parameters_restored :
    ∃ p f, Program.parse "function f(a, b) { a[b] = b }" 1400 = .ok p ∧
    f ∈ p.functions ∧
      let m : Machine :=
        { names :=
            { scalars := Table.ofList [("a", .text "1")],
              arrays := Table.ofList [("b", 0)], store := #[{}] } }
      let args : List Expr := [.read (.variable "b"), .read (.variable "a")]
      let bindings : List Binding := [.array 0, .scalar (.text "1")]
      Passed runFunction f.params.length args m.deeper bindings m.deeper ∧
        (m.deeper.enter f bindings).names.slot "a" = (Binding.array 0).slot ∧
        ((callFunction runFunction f
          (Expr.arguments runFunction args)).final m).names.slot "a" =
            (Binding.scalar (.text "1")).slot := by
  have params : (match Program.parse "function f(a, b) { a[b] = b }" 1400 with
      | .ok p => p.functions.map Function.params
      | .error _ => []) = [["a", "b"]] := by decide +kernel
  cases parsed : Program.parse "function f(a, b) { a[b] = b }" 1400 with
  | error e =>
      rw [parsed] at params
      contradiction
  | ok p =>
      rw [parsed] at params
      obtain ⟨f, rest, functions⟩ : ∃ f rest, p.functions = f :: rest := by
        cases h : p.functions with
        | nil => simp [h] at params
        | cons f rest => exact ⟨f, rest, rfl⟩
      have names : f.params = ["a", "b"] := by
        simp only [functions, List.map_cons, List.cons.injEq] at params
        exact params.1
      have defined : f ∈ p.functions := by simp [functions]
      refine ⟨p, f, rfl, defined, ?_⟩
      intro m args bindings
      have second : (Expr.read (.variable "a")).eval runFunction m.deeper =
          .ok (.text "1") m.deeper := by
        simp only [Expr.eval, Place.locate]
        rfl
      have passed :
          Passed runFunction f.params.length args m.deeper bindings
            m.deeper := by
        rw [names]
        exact .array rfl (.value (.inr rfl) second .done)
      obtain ⟨-, bound, restored⟩ :=
        call_binds_and_restores_parameters parsed defined runFunction
          (by decide) passed
      refine ⟨passed, bound 0 "a" (by rw [names]; rfl), ?_⟩
      exact restored "a" (by simp [names])

end Awk
