import Awk.Config.Datum
import Awk.Number.Numeral
import Awk.Text.Digit

/-!
Settings as JSON.

Beside the standard, the words `NaN`, `Infinity` and `-Infinity` are numbers.
Numbers with a fraction or a power of ten are reals, all others exact integers.
-/

namespace Awk.Config.Json

def isBlank (c : Char) : Bool := c == ' ' || c == '\t' || c == '\n' || c == '\r'

def skip (cs : List Char) : List Char := cs.dropWhile isBlank

/-! ## Scalars -/

def hexValue? (c : Char) : Option Nat :=
  if '0' ≤ c ∧ c ≤ '9' then some (c.toNat - '0'.toNat)
  else if 'a' ≤ c ∧ c ≤ 'f' then some (c.toNat - 'a'.toNat + 10)
  else if 'A' ≤ c ∧ c ≤ 'F' then some (c.toNat - 'A'.toNat + 10)
  else none

def hexNumber? (ds : List Char) : Option Nat :=
  ds.foldlM (fun total d => (hexValue? d).map fun v => 16 * total + v) 0

def escaped? : Char → Option Char
  | '"' => some '"'
  | '\\' => some '\\'
  | '/' => some '/'
  | 'b' => some '\x08'
  | 'f' => some '\x0c'
  | 'n' => some '\n'
  | 'r' => some '\r'
  | 't' => some '\t'
  | _ => none

def joinHalves (high low : Nat) : Char :=
  Char.ofNat (0x10000 + (high - 0xd800) * 0x400 + (low - 0xdc00))

def string : (high : Option Nat) → List Char → Option (List Char × List Char)
  | high, '\\' :: 'u' :: a :: b :: c :: d :: rest =>
      match hexNumber? [a, b, c, d], high with
      | none, _ => none
      | some n, some h =>
          if 0xdc00 ≤ n ∧ n < 0xe000 then
            (string none rest).map fun (s, after) =>
              (joinHalves h n :: s, after)
          else none
      | some n, none =>
          if 0xd800 ≤ n ∧ n < 0xdc00 then string (some n) rest
          else (string none rest).map fun (s, after) =>
            (Char.ofNat n :: s, after)
  | some _, _ => none
  | none, '\\' :: c :: rest =>
      match escaped? c with
      | some d => (string none rest).map fun (s, after) => (d :: s, after)
      | none => none
  | none, '"' :: rest => some ([], rest)
  | none, c :: rest =>
      if c.toNat < 0x20 ∨ c = '\\' then none
      else (string none rest).map fun (s, after) => (c :: s, after)
  | none, [] => none

def stringText (cs : List Char) : Option (String × List Char) :=
  (string none cs).map fun (s, rest) => (String.ofList s, rest)

def wholeDigits (cs : List Char) : Option (List Char × List Char) :=
  match cs with
  | '0' :: rest => some (['0'], rest)
  | _ =>
      let (ds, rest) := cs.span Text.isAsciiDigit
      if ds.isEmpty then none else some (ds, rest)

def fractionDigits : List Char → List Char × List Char
  | '.' :: rest =>
      let (ds, after) := rest.span Text.isAsciiDigit
      if ds.isEmpty then ([], '.' :: rest) else ('.' :: ds, after)
  | cs => ([], cs)

def powerDigits (cs : List Char) : List Char × List Char :=
  match cs with
  | c :: rest =>
      if c = 'e' ∨ c = 'E' then
        let (sign, afterSign) :=
          match rest with
          | '+' :: r => (['+'], r)
          | '-' :: r => (['-'], r)
          | r => ([], r)
        let (ds, after) := afterSign.span Text.isAsciiDigit
        if ds.isEmpty then ([], cs) else (c :: sign ++ ds, after)
      else ([], cs)
  | [] => ([], [])

def unsigned (negative : Bool) (cs : List Char) :
    Option (Datum × List Char) := do
  let (whole, rest) ← wholeDigits cs
  let (fraction, rest) := fractionDigits rest
  let (power, rest) := powerDigits rest
  if fraction.isEmpty && power.isEmpty then
    let n : Int := (Text.digitsValue whole : Nat)
    return (.integer (if negative then -n else n), rest)
  else
    let sign := if negative then ['-'] else []
    return (.real (Number.ofText (String.ofList (sign ++ whole ++ fraction ++
      power))), rest)

/-! ## Values -/

def word? : List Char → Option (Datum × List Char)
  | 'n' :: 'u' :: 'l' :: 'l' :: rest => some (.null, rest)
  | 't' :: 'r' :: 'u' :: 'e' :: rest => some (.flag true, rest)
  | 'f' :: 'a' :: 'l' :: 's' :: 'e' :: rest => some (.flag false, rest)
  | 'N' :: 'a' :: 'N' :: rest => some (.real (.nan false), rest)
  | 'I' :: 'n' :: 'f' :: 'i' :: 'n' :: 'i' :: 't' :: 'y' :: rest =>
      some (.real Number.infinity, rest)
  | '-' :: 'I' :: 'n' :: 'f' :: 'i' :: 'n' :: 'i' :: 't' :: 'y' :: rest =>
      some (.real Number.negativeInfinity, rest)
  | '-' :: rest => unsigned true rest
  | cs => unsigned false cs

mutual

/-- A value at the front of a text; values nest at most `fuel` deep. -/
def value : (fuel : Nat) → List Char → Option (Datum × List Char)
  | 0, _ => none
  | fuel + 1, cs =>
      match cs with
      | '"' :: rest => (stringText rest).map fun (s, after) => (.text s, after)
      | '[' :: rest =>
          match skip rest with
          | ']' :: after => some (.list [], after)
          | items =>
              (elements fuel items).map fun (ds, after) => (.list ds, after)
      | '\x7b' :: rest =>
          match skip rest with
          | '\x7d' :: after => some (.mapping [], after)
          | pairs =>
              (members fuel pairs).map fun (entries, after) =>
                (Datum.ofPairs entries, after)
      | _ => word? cs

def elements : (fuel : Nat) → List Char → Option (List Datum × List Char)
  | 0, _ => none
  | fuel + 1, cs => do
      let (d, rest) ← value fuel cs
      match skip rest with
      | ',' :: more =>
          let (ds, after) ← elements fuel (skip more)
          return (d :: ds, after)
      | ']' :: after => return ([d], after)
      | _ => none

def members : (fuel : Nat) → List Char →
    Option (List (Datum × Datum) × List Char)
  | 0, _ => none
  | fuel + 1, cs =>
      match cs with
      | '"' :: rest => do
          let (key, afterKey) ← stringText rest
          match skip afterKey with
          | ':' :: afterColon =>
              let (d, afterValue) ← value fuel (skip afterColon)
              match skip afterValue with
              | ',' :: more =>
                  let (entries, after) ← members fuel (skip more)
                  return ((.text key, d) :: entries, after)
              | '\x7d' :: after => return ([(.text key, d)], after)
              | _ => none
          | _ => none
      | _ => none

end

def parse (source : String) : Option Datum := do
  let cs := source.toList
  let (d, rest) ← value (2 * cs.length + 1) (skip cs)
  if (skip rest).isEmpty then some d else none

end Awk.Config.Json
