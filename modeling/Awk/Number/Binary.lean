import Awk.Number.Basic

/-!
A finite double as an exact binary fraction.

Everything that needs the exact value of a number (truncation, remainder,
decimal text) goes through `Binary`, whose value is `± significand * 2 ^
exponent`.
-/

namespace Awk

structure Binary where
  negative : Bool
  significand : Nat
  exponent : Int
  deriving DecidableEq, Repr

namespace Binary

/-- Read the sign, the exponent and the significand off the bits; `none` for
infinities and NaN. -/
def ofFloat? (x : Float) : Option Binary :=
  let bits := x.toBits.toNat
  let negative := bits / Nat.pow 2 63 == 1
  let biased : Nat := bits / Nat.pow 2 52 % Nat.pow 2 11
  let fraction := bits % Nat.pow 2 52
  if biased = 2047 then none
  else if biased = 0 then some ⟨negative, fraction, -1074⟩
  else some ⟨negative, fraction + Nat.pow 2 52, (biased : Int) - 1075⟩

def toFloat (b : Binary) : Float :=
  let x := (Float.ofNat b.significand).scaleB b.exponent
  if b.negative then -x else x

def ratio (b : Binary) : Nat × Nat :=
  if 0 ≤ b.exponent then (b.significand * Nat.pow 2 b.exponent.toNat, 1)
  else (b.significand, Nat.pow 2 (-b.exponent).toNat)

def truncate (b : Binary) : Int :=
  let (num, den) := b.ratio
  let magnitude : Int := (num / den : Nat)
  if b.negative then -magnitude else magnitude

def floor (b : Binary) : Int :=
  let (num, den) := b.ratio
  if b.negative then -(((num + den - 1) / den : Nat) : Int)
    else ((num / den : Nat) : Int)

end Binary

/-- Divide to the nearest integer; a tie goes to the even neighbour. -/
def roundDiv (num den : Nat) : Nat :=
  let q := num / den
  let r := num % den
  if 2 * r < den then q
  else if den < 2 * r then q + 1
  else if q % 2 = 0 then q else q + 1

namespace Number

def truncate? : Number → Option Int
  | .nan _ => none
  | .real x => (Binary.ofFloat? x).map Binary.truncate

def round? : Number → Option Int
  | .nan _ => none
  | .real x => (Binary.ofFloat? x).map fun b =>
      let (num, den) := b.ratio
      let magnitude : Int := (roundDiv num den : Nat)
      if b.negative then -magnitude else magnitude

def floor : Number → Number
  | .nan s => .nan s
  | .real x =>
      match Binary.ofFloat? x with
      | some b => ofInt b.floor
      | none => .real x

def toInteger (x : Number) : Int := x.truncate?.getD 0

/-- Remainder of a division that goes toward zero, with the sign of the
dividend.  The divisor is not zero.  An infinite dividend has no remainder. -/
def remainder : Number → Number → Number
  | .nan s, _ => .nan s
  | .real _, .nan s => .nan s
  | .real x, .real y =>
      match Binary.ofFloat? x, Binary.ofFloat? y with
      | none, _ => .nan false
      | some _, none => .real x
      | some a, some b =>
          let e := min a.exponent b.exponent
          let m := a.significand * Nat.pow 2 (a.exponent - e).toNat
          let n := b.significand * Nat.pow 2 (b.exponent - e).toNat
          .real (Binary.toFloat ⟨a.negative, m % n, e⟩)

end Number

end Awk
