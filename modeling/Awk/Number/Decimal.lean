import Awk.Number.Binary

/-!
Decimal text of a fraction, rounded exactly.

A magnitude is given as a fraction `num / den`.  `rounded` keeps a number of
significant digits; the three layouts write a fixed number of places, a power of
ten, or whichever of the two is shorter.  The rounding is to nearest and a tie
goes to the even digit.
-/

namespace Awk.Decimal

def digits (n : Nat) : List Char := Nat.toDigits 10 n

def digitCount (n : Nat) : Nat := (digits n).length

def scale (num den : Nat) (k : Int) : Nat × Nat :=
  if 0 ≤ k then (num * Nat.pow 10 k.toNat, den)
    else (num, den * Nat.pow 10 (-k).toNat)

def leadingExponent (num den : Nat) : Int :=
  let e : Int := (digitCount num : Int) - (digitCount den : Int)
  let (n, d) := scale num den (-e)
  if d ≤ n then e else e - 1

/-- The first `count` significant digits, read as one integer, and the power of
ten of the first of them. -/
def rounded (num den count : Nat) : Nat × Int :=
  if num = 0 then (0, 0)
  else
    let e := leadingExponent num den
    let (n, d) := scale num den ((count : Int) - 1 - e)
    let q := roundDiv n d
    if q = Nat.pow 10 count then (Nat.pow 10 (count - 1), e + 1) else (q, e)

def paddedDigits (count n : Nat) : List Char :=
  let ds := digits n
  List.replicate (count - ds.length) '0' ++ ds

def dropTrailingZeros (cs : List Char) : List Char :=
  (cs.reverse.dropWhile (· == '0')).reverse

def pointAnd (keepPoint : Bool) (fraction : List Char) : List Char :=
  if fraction.isEmpty && !keepPoint then [] else '.' :: fraction

def exponentText (e : Int) : List Char :=
  ['e', if e < 0 then '-' else '+'] ++ paddedDigits 2 e.natAbs

/-! ## Layouts -/

def fixed (num den places : Nat) (keepPoint : Bool) : List Char :=
  let ds := paddedDigits (places + 1) (roundDiv (num * Nat.pow 10 places) den)
  let whole := ds.length - places
  ds.take whole ++ pointAnd keepPoint (ds.drop whole)

def exponential (num den places : Nat) (keepPoint : Bool) : List Char :=
  let (q, e) := rounded num den (places + 1)
  let ds := paddedDigits (places + 1) q
  ds.take 1 ++ pointAnd keepPoint (ds.drop 1) ++ exponentText e

/-- `precision` significant digits, without a power of ten when it is between
`-5` and `precision` exclusive.  Zeros at the end of the fraction are dropped
unless `keepZeros`. -/
def general (num den precision : Nat) (keepZeros : Bool) : List Char :=
  let count := max precision 1
  let (q, e) := rounded num den count
  let ds := paddedDigits count q
  let trim (cs : List Char) : List Char :=
    if keepZeros then cs else dropTrailingZeros cs
  if e < -4 ∨ (count : Int) ≤ e then
    ds.take 1 ++ pointAnd keepZeros (trim (ds.drop 1)) ++ exponentText e
  else if e < 0 then
    '0' :: pointAnd keepZeros (trim (List.replicate (-e - 1).toNat '0' ++ ds))
  else
    let whole := e.toNat + 1
    ds.take whole ++ pointAnd keepZeros (trim (ds.drop whole))

/-! ## Reading -/

def toFloat (significand : Nat) (exponent : Int) : Float :=
  let leading := (digitCount significand : Int) + exponent
  if significand = 0 then 0.0
  else if leading > 400 then 1.0 / 0.0
  else if leading < -400 then 0.0
  else Float.ofScientific significand (exponent < 0) exponent.natAbs

end Awk.Decimal
