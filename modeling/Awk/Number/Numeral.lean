import Awk.Number.Decimal
import Awk.Text.Blank
import Awk.Text.Digit

/-!
How numbers are spelled in text: an optional sign, digits with an optional
point, an optional power of ten.  `Numeral.scan` reads the longest numeral at
the front of a text; a mark of a power without digits is left unread.  There are
no hexadecimal, infinite or NaN spellings.
-/

namespace Awk

structure PowerOfTen where
  mark : Char
  sign : Option Char
  digits : List Char
  deriving DecidableEq, Repr

structure Numeral where
  sign : Option Char
  whole : List Char
  point : Bool
  fraction : List Char
  power : Option PowerOfTen
  deriving DecidableEq, Repr

namespace PowerOfTen

def text (p : PowerOfTen) : List Char := p.mark :: (p.sign.toList ++ p.digits)

def value (p : PowerOfTen) : Int :=
  let n : Int := (Text.digitsValue p.digits : Nat)
  if p.sign = some '-' then -n else n

end PowerOfTen

namespace Numeral

def text (n : Numeral) : List Char :=
  n.sign.toList ++ n.whole ++ (if n.point then ['.'] else []) ++ n.fraction
    ++ (n.power.map PowerOfTen.text).getD []

def value (n : Numeral) : Number :=
  let significand := Text.digitsValue (n.whole ++ n.fraction)
  let exponent :=
    (n.power.map PowerOfTen.value).getD 0 - (n.fraction.length : Int)
  let magnitude := Decimal.toFloat significand exponent
  .real (if n.sign = some '-' then -magnitude else magnitude)

/-! ## Reading -/

def scanSign : List Char → Option Char × List Char
  | '+' :: rest => (some '+', rest)
  | '-' :: rest => (some '-', rest)
  | rest => (none, rest)

def scanPower : List Char → Option PowerOfTen × List Char
  | [] => (none, [])
  | c :: rest =>
      if c = 'e' ∨ c = 'E' then
        let (sign, afterSign) := scanSign rest
        let (digits, after) := afterSign.span Text.isDigit
        if digits.isEmpty then (none, c :: rest)
          else (some ⟨c, sign, digits⟩, after)
      else (none, c :: rest)

def scanMantissa (cs : List Char) :
    Option ((List Char × Bool × List Char) × List Char) :=
  let (whole, rest) := cs.span Text.isDigit
  match rest with
  | '.' :: afterPoint =>
      let (fraction, after) := afterPoint.span Text.isDigit
      if whole.isEmpty && fraction.isEmpty then none
        else some ((whole, true, fraction), after)
  | _ => if whole.isEmpty then none else some ((whole, false, []), rest)

def scanUnsigned (cs : List Char) : Option (Numeral × List Char) :=
  match scanMantissa cs with
  | none => none
  | some ((whole, point, fraction), rest) =>
      let (power, after) := scanPower rest
      some (⟨none, whole, point, fraction, power⟩, after)

/-- The longest numeral at the front of a text, and what follows it. -/
def scan (cs : List Char) : Option (Numeral × List Char) :=
  let (sign, rest) := scanSign cs
  (scanUnsigned rest).map fun (n, after) => ({ n with sign := sign }, after)

end Numeral

namespace Number

/-- The number a text starts with, after blanks; zero if there is none. -/
def ofText (s : String) : Number :=
  match Numeral.scan (s.toList.dropWhile Text.isNumberBlank) with
  | some (n, _) => n.value
  | none => zero

/-- Whether a text, white space around it aside, is a numeral and nothing
else. -/
def isSpelledBy (s : String) : Bool :=
  match Numeral.scan (Text.strip Text.isSpace s.toList) with
  | some (_, []) => true
  | _ => false

end Number

end Awk
