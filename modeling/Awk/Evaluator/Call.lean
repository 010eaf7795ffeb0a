import Awk.Evaluator.Argument

/-!
Calls of functions that a program defines.

Only the parameters are local.  A bare name of an array binds the parameter to
that array itself; all other arguments are passed by value.  When the call is
over, also after a fault, every parameter name stands for what it stood for
before.
-/

namespace Awk

abbrev BodyRunner := Function → Exec Unit

/-- What an argument binds its parameter to; an argument without a parameter is
passed by value. -/
def Argument.binding (a : Argument) (hasParam : Bool) : Exec Binding := do
  let array ← if hasParam then a.array? else pure none
  match array with
  | some id => return .array id
  | none => return .scalar (← a.value)

def bindingsOf : (params : Nat) → List Argument → Exec (List Binding)
  | _, [] => pure []
  | params, a :: rest => do
      let binding ← a.binding (0 < params)
      let bindings ← bindingsOf (params - 1) rest
      return binding :: bindings

def Names.save (n : Names) (params : List String) : List (String × Slot) :=
  params.map fun p => (p, n.slot p)

def Names.setAll (n : Names) (slots : List (String × Slot)) : Names :=
  slots.foldl (fun n (name, s) => n.setSlot name s) n

/-- Parameters with what they are bound to; those without an argument are
unset. -/
def pairUp : List String → List Binding → List (String × Slot)
  | [], _ => []
  | p :: params, [] =>
      (p, (Binding.scalar Value.unset).slot) :: pairUp params []
  | p :: params, b :: bindings => (p, b.slot) :: pairUp params bindings

def Flow.settled (f : Flow) : Flow :=
  { f with returning := false, returned := none, breaking := false,
           continuing := false }

def callBound (run : BodyRunner) (f : Function) (bindings : List Binding) :
    Exec Value := do
  let saved := (← get).names.save f.params
  modify fun m =>
    { m with names := m.names.setAll (pairUp f.params bindings) }
  Exec.note ["CALL", f.name, "depth", toString (← get).depth]
  modify fun m => { m with flow := { m.flow with returning := false,
                                                 returned := none } }
  Exec.andAlways
    (do
      run f
      return (← get).flow.returned.getD Value.unset)
    fun m =>
      { m with names := m.names.setAll saved.reverse, flow := m.flow.settled }

/-- Call a function, if calls may nest that deeply. -/
def callFunction (run : BodyRunner) (f : Function) (args : List Argument) :
    Exec Value := do
  let limit := (← get).limits.calls
  if limit < (← get).depth + 1 then
    Exec.note ["LIMIT", "recursion", f.name, toString limit]
    Exec.exceed .calls limit
  modify fun m => { m with depth := m.depth + 1 }
  Exec.andAlways
    (do
      let bindings ← bindingsOf f.params.length args
      callBound run f bindings)
    fun m => { m with depth := m.depth - 1 }

end Awk
