/-!
Numbers of the language: double precision reals, where a NaN keeps its sign
because printing shows it.

Arithmetic follows IEEE 754.  When an operand is a NaN the result is the first
such operand, sign included; a NaN that arises from two reals carries a minus
sign.
-/

namespace Awk

inductive Number where
  | nan (negative : Bool)
  | real (x : Float)
  deriving DecidableEq, Repr

namespace Number

def ofFloat (x : Float) : Number :=
  if x.isNaN then .nan true else .real x

def toFloat : Number → Float
  | .nan _ => 0.0 / 0.0
  | .real x => x

instance : Inhabited Number := ⟨.real 0.0⟩

def zero : Number := .real 0.0
def one : Number := .real 1.0
def infinity : Number := .real (1.0 / 0.0)
def negativeInfinity : Number := .real (-1.0 / 0.0)

def ofNat (n : Nat) : Number := .real (Float.ofNat n)
def ofInt (n : Int) : Number := .real (Float.ofInt n)
def ofBool (b : Bool) : Number := if b then one else zero

def isNaN : Number → Bool
  | .nan _ => true
  | .real x => x.isNaN

def isFinite : Number → Bool
  | .nan _ => false
  | .real x => x.isFinite

/-! ## Arithmetic -/

def lift (op : Float → Float → Float) : Number → Number → Number
  | .nan s, _ => .nan s
  | .real _, .nan s => .nan s
  | .real x, .real y => ofFloat (op x y)

instance : Add Number := ⟨lift (· + ·)⟩
instance : Sub Number := ⟨lift (· - ·)⟩
instance : Mul Number := ⟨lift (· * ·)⟩
instance : Div Number := ⟨lift (· / ·)⟩

instance : Neg Number where
  neg
    | .nan s => .nan (!s)
    | .real x => .real (-x)

/-! ## Comparison: a NaN is unordered and differs from everything -/

def lt : Number → Number → Bool
  | .real x, .real y => x < y
  | _, _ => false

def le : Number → Number → Bool
  | .real x, .real y => x ≤ y
  | _, _ => false

def eq : Number → Number → Bool
  | .real x, .real y => x == y
  | _, _ => false

def isZero (x : Number) : Bool := eq x zero

end Number

end Awk
