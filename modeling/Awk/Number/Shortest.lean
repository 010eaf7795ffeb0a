import Awk.Number.Decimal

/-!
The shortest decimal text that reads back as the same number.

For one, two, ... seventeen digits the two neighbours of the value on that
decimal grid are read back. The first grid with a hit wins, and of two hits the
nearer one.  Seventeen digits always suffice.
-/

namespace Awk.Shortest

def hit? (x : Float) (num den count : Nat) : Option (Nat × Int) :=
  let e := Decimal.leadingExponent num den
  let lowest := e - (count : Int) + 1
  let (n, d) := Decimal.scale num den (-lowest)
  let nearest := roundDiv n d
  let other := if nearest = n / d then nearest + 1 else n / d
  let readsBack (q : Nat) : Bool := Decimal.toFloat q lowest == x
  if readsBack nearest then some (nearest, lowest)
  else if readsBack other then some (other, lowest)
  else none

def decimal (x : Float) (num den : Nat) : Nat × Int :=
  ((List.range 17).findSome? fun k => hit? x num den (k + 1)).getD
    (let (q, e) := Decimal.rounded num den 17; (q, e - 16))

/-- Positional with at least one digit after the point when the power of ten of
the first digit is from `-4` to `15`, otherwise with a power of ten. -/
def layout (significand : Nat) (exponent : Int) : List Char :=
  let ds := Decimal.dropTrailingZeros (Decimal.digits significand)
  let leading := exponent + (Decimal.digitCount significand : Int) - 1
  if leading < -4 ∨ 16 ≤ leading then
    ds.take 1 ++ Decimal.pointAnd false (ds.drop 1) ++
      Decimal.exponentText leading
  else if leading < 0 then
    ['0', '.'] ++ List.replicate (-leading - 1).toNat '0' ++ ds
  else
    let whole := leading.toNat + 1
    let padded := ds ++ List.replicate (whole - ds.length) '0'
    let fraction := padded.drop whole
    padded.take whole ++ '.' :: (if fraction.isEmpty then ['0'] else fraction)

end Awk.Shortest

namespace Awk.Number

def shortestText : Number → String
  | .nan _ => "nan"
  | .real x =>
      match Binary.ofFloat? x with
      | none => if x < 0.0 then "-inf" else "inf"
      | some b =>
          let (num, den) := b.ratio
          let body :=
            if num = 0 then ['0', '.', '0']
            else
              let (q, e) := Shortest.decimal x.abs num den
              Shortest.layout q e
          String.ofList (if b.negative then '-' :: body else body)

end Awk.Number
