import Awk.Number.Binary

/-!
Exponentiation made total: what grows too large and a negative power of zero are
infinite, and a fractional power of a negative number is a NaN unless its
magnitude is too large.
-/

namespace Awk.Number

def isOddInteger (x : Float) : Bool :=
  match Binary.ofFloat? x with
  | none => false
  | some b =>
      let (num, den) := b.ratio
      num % den == 0 && num / den % 2 == 1

def isInteger (x : Float) : Bool :=
  match Binary.ofFloat? x with
  | none => false
  | some b => b.ratio.1 % b.ratio.2 == 0

private def powReal (x y : Float) : Number :=
  let odd := isOddInteger y
  if y.isInf then
    let magnitude := x.abs
    if magnitude == 1.0 then one
    else if (y > 0.0) == (magnitude > 1.0) then infinity else zero
  else if x.isInf then
    if y > 0.0 then (if odd then .real x else infinity)
    else if odd && x < 0.0 then .real (-0.0) else zero
  else if x == 0.0 then
    if y < 0.0 then infinity else if odd then .real x else zero
  else if x < 0.0 then
    if !isInteger y then (if ((-x).pow y).isInf then infinity else .nan false)
    else
      let magnitude := (-x).pow y
      .real (if odd then -magnitude else magnitude)
  else .real (x.pow y)

def power (x y : Number) : Number :=
  if y.isZero then one
  else
    match x, y with
    | .nan s, _ => .nan s
    | .real x, .nan s => if x == 1.0 then one else .nan s
    | .real x, .real y => powReal x y

end Awk.Number
