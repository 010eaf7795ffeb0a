import Awk.Machine.Names

/-!
Places in storage, and arguments as functions see them.

An argument is not evaluated before the call: a function evaluates what it
needs, and may ask whether the argument is a bare name, a pattern literal or
something assignable.
-/

namespace Awk

inductive Location where
  | field (index : Number)
  | variable (name : String)
  | element (array key : String)
  deriving DecidableEq, Repr

namespace Exec

def readAt : Location → Exec Value
  | .field index => readField index
  | .variable name => readVariable name
  | .element array key => getElement array key

def writeAt (l : Location) (v : Value) : Exec Unit :=
  match l with
  | .field index => assignField index v
  | .variable name => assignVariable name v
  | .element array key => setElement array key v

end Exec

structure Argument where
  value : Exec Value
  name : Option String
  pattern : Option String
  location : Option (Exec Location)

namespace Argument

def text (a : Argument) : Exec String := do Exec.textOf (← a.value)

def number (a : Argument) : Exec Number := do return (← a.value).toNumber

def patternText (a : Argument) : Exec String :=
  match a.pattern with
  | some pattern => pure pattern
  | none => a.text

def array? (a : Argument) : Exec (Option ArrayId) := do
  let names := (← get).names
  return a.name.bind fun name => names.arrays.get? name

end Argument

end Awk
