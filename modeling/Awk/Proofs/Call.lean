import Awk.Proofs.Relation.Basic

/-!
# What a call does

A call in one equation: the arguments are evaluated one level deeper, the body
starts in the state that `Machine.enter` gives, and `Machine.leave` is applied
to the state that the body leaves behind, whether it ended with a value or with
a fault.
-/

namespace Awk

open List (Forall₂)

def Machine.noted (m : Machine) (parts : List String) : Machine :=
  if m.trace.enabled then
    { m with trace := { m.trace with
      lines := m.trace.lines ++ [" ".intercalate ("[DBG]" :: parts)] } }
  else m

def Machine.deeper (m : Machine) : Machine := { m with depth := m.depth + 1 }

def Machine.shallower (m : Machine) : Machine := { m with depth := m.depth - 1 }

/-- The state in which the body of a function starts. -/
def Machine.enter (m : Machine) (f : Function) (bindings : List Binding) :
    Machine :=
  let bound := { m with names := m.names.setAll (pairUp f.params bindings) }
  let noted := bound.noted ["CALL", f.name, "depth", toString m.depth]
  { noted with flow := { noted.flow with returning := false,
                                         returned := none } }

/-- The state after a call that began in the state `before`. -/
def Machine.leave (before : Machine) (f : Function) (m : Machine) : Machine :=
  { m with
    names := m.names.setAll (before.names.save f.params).reverse
    flow := m.flow.settled }

def bodyValue (run : BodyRunner) (f : Function) : Exec Value := do
  run f
  return (← get).flow.returned.getD Value.unset

/-! ## Entering a body -/

theorem Machine.noted_eq (m : Machine) (parts : List String) :
    ∃ lines, m.noted parts = { m with
      trace := { m.trace with lines := lines } } := by
  unfold Machine.noted
  split
  · exact ⟨_, rfl⟩
  · exact ⟨m.trace.lines, rfl⟩

theorem Machine.enter_eq (m : Machine) (f : Function)
    (bindings : List Binding) :
    ∃ lines, m.enter f bindings =
      { m with
        names := m.names.setAll (pairUp f.params bindings)
        flow := { m.flow with returning := false, returned := none }
        trace := { m.trace with lines := lines } } := by
  unfold Machine.enter
  obtain ⟨lines, noted⟩ :=
    Machine.noted_eq { m with
      names := m.names.setAll (pairUp f.params bindings) } ["CALL", f.name,
      "depth", toString m.depth]
  refine ⟨lines, ?_⟩
  dsimp only
  rw [noted]

theorem Machine.names_enter (m : Machine) (f : Function)
    (bindings : List Binding) :
    (m.enter f bindings).names = m.names.setAll (pairUp f.params bindings) := by
  obtain ⟨lines, entered⟩ := m.enter_eq f bindings
  rw [entered]

/-! ## The call -/

variable {α : Type} {run : BodyRunner} {f : Function}

theorem callBound_apply (bindings : List Binding) (m : Machine) :
    callBound run f bindings m = mapState (m.leave f)
      (bodyValue run f (m.enter f bindings)) := by
  change Exec.andAlways (bodyValue run f) (m.leave f) (m.enter f bindings) = _
  unfold Exec.andAlways mapState
  cases bodyValue run f (m.enter f bindings) <;> rfl

theorem callFunction_refused {m : Machine} (full : m.limits.calls < m.depth + 1)
    (args : List Argument) :
    callFunction run f args m =
      .error (.calls ⟨m.limits.calls, m.output.text⟩)
        (m.noted ["LIMIT", "recursion", f.name, toString m.limits.calls]) := by
  change (ite (m.limits.calls < m.depth + 1) (_ : Exec Value) _) m = _
  rw [if_pos full]
  have written : (m.noted ["LIMIT", "recursion", f.name,
      toString m.limits.calls]).output.text = m.output.text := by
    obtain ⟨lines, noted⟩ :=
      m.noted_eq ["LIMIT", "recursion", f.name, toString m.limits.calls]
    rw [noted]
  rw [← written]
  rfl

theorem callFunction_apply {m : Machine} (room : ¬m.limits.calls < m.depth + 1)
    (args : List Argument) :
    callFunction run f args m =
      mapState Machine.shallower
        ((bindingsOf f.params.length args >>= callBound run f) m.deeper) := by
  change (ite (m.limits.calls < m.depth + 1) (_ : Exec Value) _) m = _
  rw [if_neg room]
  change Exec.andAlways (bindingsOf f.params.length args >>= callBound run f)
    Machine.shallower m.deeper = _
  unfold Exec.andAlways mapState
  cases (bindingsOf f.params.length args >>= callBound run f) m.deeper <;> rfl

theorem callByName_defined {name : String} {m : Machine}
    (other : Builtin.ofName? name = none)
    (defined : m.functions.get? name = some f) (args : List Argument) :
    callByName run name args m = callFunction run f args m := by
  simp only [callByName, other]
  rw [Exec.get_bind_apply, defined]

theorem callByName_unknown {name : String} {m : Machine}
    (other : Builtin.ofName? name = none)
    (undefined : m.functions.get? name = none) (args : List Argument) :
    callByName run name args m =
      (do
        Exec.note ["CALL", "unknown function", name]
        return Value.unset : Exec Value) m := by
  simp only [callByName, other]
  rw [Exec.get_bind_apply, undefined]

theorem mapState_ok (g : Machine → Machine) (a : α) (m : Machine) :
    mapState g (.ok a m) = .ok a (g m) := rfl

theorem mapState_error (g : Machine → Machine) (e : Fault) (m : Machine) :
    mapState g (.error e m : EStateM.Result Fault Machine α) = .error e (g m) :=
  rfl

theorem stateOf_mapState (g : Machine → Machine)
    (r : EStateM.Result Fault Machine α) :
    stateOf (mapState g r) = g (stateOf r) := by
  cases r <;> rfl

/-! ## Arguments -/

def Expr.argument (run : Services) (e : Expr) : Argument :=
  match e with
  | .read place =>
      { value := do Exec.readAt (← place.locate run)
        name := place.variableName?
        pattern := none
        location := some (place.locate run) }
  | e =>
      { value := e.eval run, name := none, pattern := e.literalPattern?,
        location := none }

theorem Expr.arguments_cons (run : Services) (e : Expr) (rest : List Expr) :
    Expr.arguments run (e :: rest) =
      e.argument run :: Expr.arguments run rest := by
  cases e <;> simp only [Expr.arguments, Expr.argument]

theorem Expr.arguments_eq_map (run : Services) (es : List Expr) :
    Expr.arguments run es = es.map (Expr.argument run) := by
  induction es with
  | nil => simp only [Expr.arguments, List.map_nil]
  | cons e rest ih => rw [Expr.arguments_cons, ih, List.map_cons]

section

variable {Q : ExecRelation} {C : Machine → Machine → Prop}

theorem binding_related (hQ : Sequential Q C) {a b : Argument}
    (h : a.Related Q b) (hasParam : Bool) :
    Q Binding (a.binding hasParam) (b.binding hasParam) := by
  have scalar : Q Binding (do return .scalar (← a.value))
      (do return .scalar (← b.value)) :=
    hQ.bind h.value fun v => hQ.pure _
  cases hasParam with
  | false => exact scalar
  | true =>
      refine hQ.bind (h.array? hQ) fun array => ?_
      cases array with
      | some id => exact hQ.pure _
      | none => exact scalar

theorem bindingsOf_related (hQ : Sequential Q C) {args₁ args₂ : List Argument}
    (h : Forall₂ (Argument.Related Q) args₁ args₂) (params : Nat) :
    Q (List Binding) (bindingsOf params args₁) (bindingsOf params args₂) := by
  induction h generalizing params with
  | nil => exact hQ.pure []
  | cons first rest ih =>
      refine hQ.bind (binding_related hQ first _) fun binding => ?_
      exact hQ.bind (ih (params - 1)) fun bindings => hQ.pure _

end

end Awk
