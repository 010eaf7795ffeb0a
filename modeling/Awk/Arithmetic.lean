import Awk.Number.Power

/-!
Arithmetic operators.

Dividing by zero is an error of the operators `/` and `%`, while the assignments
`/=` and `%=` store zero instead.
-/

namespace Awk

inductive Arithmetic where
  | add
  | sub
  | mul
  | div
  | mod
  | pow
  deriving DecidableEq, Repr

inductive DivisionError where
  | division
  | remainder
  deriving DecidableEq, Repr

namespace Arithmetic

def spelling : Arithmetic → String
  | .add => "+"
  | .sub => "-"
  | .mul => "*"
  | .div => "/"
  | .mod => "%"
  | .pow => "^"

def ofSpelling? : String → Option Arithmetic
  | "+" => some .add
  | "-" => some .sub
  | "*" => some .mul
  | "/" => some .div
  | "%" => some .mod
  | "^" => some .pow
  | _ => none

def apply (op : Arithmetic) (x y : Number) : Except DivisionError Number :=
  match op with
  | .add => .ok (x + y)
  | .sub => .ok (x - y)
  | .mul => .ok (x * y)
  | .div => if y.isZero then .error .division else .ok (x / y)
  | .mod => if y.isZero then .error .remainder else .ok (x.remainder y)
  | .pow => .ok (x.power y)

def update (op : Arithmetic) (current x : Number) : Number :=
  match op.apply current x with
  | .ok r => r
  | .error _ => Number.zero

end Arithmetic

namespace DivisionError

def message : DivisionError → String
  | .division => "division by zero attempted"
  | .remainder => "division by zero attempted in `%'"

end DivisionError

end Awk
