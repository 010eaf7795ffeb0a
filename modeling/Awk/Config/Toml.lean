import Awk.Config.Json
import Awk.Text.Split

/-!
Settings as TOML: keys with values, tables under headings, comments.

A key may be given only once, and a table may be opened only once.  There are no
dates.
-/

namespace Awk.Config.Toml

def isBlank (c : Char) : Bool := c == ' ' || c == '\t'

def skip (cs : List Char) : List Char := cs.dropWhile isBlank

def skipComment (cs : List Char) : List Char :=
  match cs with
  | '#' :: rest => rest.dropWhile (· != '\n')
  | _ => cs

def skipLines : (fuel : Nat) → List Char → List Char
  | 0, cs => cs
  | fuel + 1, cs =>
      match skip cs with
      | '\n' :: rest => skipLines fuel rest
      | '#' :: rest => skipLines fuel (rest.dropWhile (· != '\n'))
      | rest => rest

def endLine (cs : List Char) : Option (List Char) :=
  match skipComment (skip cs) with
  | [] => some []
  | '\n' :: rest => some rest
  | _ => none

/-! ## Strings -/

def isControl (c : Char) : Bool := (c.toNat < 0x20 && c != '\t') ||
    c.toNat == 0x7f

def escaped? : Char → Option Char
  | 'b' => some '\x08'
  | 't' => some '\t'
  | 'n' => some '\n'
  | 'f' => some '\x0c'
  | 'r' => some '\r'
  | '"' => some '"'
  | '\\' => some '\\'
  | _ => none

def numbered? (ds : List Char) : Option Char :=
  (Json.hexNumber? ds).bind fun n => if h :
    n.isValidChar then some (Char.ofNatAux n h) else none

def escape? : List Char → Option (Char × Nat)
  | 'u' :: rest =>
      if rest.length < 4 then none else (numbered? (rest.take 4)).map (·, 5)
  | 'U' :: rest =>
      if rest.length < 8 then none else (numbered? (rest.take 8)).map (·, 9)
  | c :: _ => (escaped? c).map (·, 1)
  | [] => none

def basicString : (skipped : Nat) → List Char → Option (List Char × List Char)
  | _, [] => none
  | n + 1, _ :: rest => basicString n rest
  | 0, c :: rest =>
      if c = '"' then some ([], rest)
      else if c = '\\' then
        match escape? rest with
        | some (d, n) =>
            (basicString n rest).map fun (s, after) => (d :: s, after)
        | none => none
      else if isControl c then none
      else (basicString 0 rest).map fun (s, after) => (c :: s, after)

def literalString : List Char → Option (List Char × List Char)
  | [] => none
  | c :: rest =>
      if c = '\x27' then some ([], rest)
      else if isControl c then none
      else (literalString rest).map fun (s, after) => (c :: s, after)

def isLineBlank (c : Char) : Bool := isBlank c || c == '\n'

def longString : (skipped : Nat) → List Char → Option (List Char × List Char)
  | _, [] => none
  | n + 1, _ :: rest => longString n rest
  | 0, '"' :: '"' :: '"' :: rest =>
      let extra := (rest.takeWhile (· == '"')).take 2
      some (extra, rest.drop extra.length)
  | 0, c :: rest =>
      if c = '\\' then
        let blanks := rest.takeWhile isBlank
        if (rest.drop blanks.length).head? = some '\n' then
          longString (rest.takeWhile isLineBlank).length rest
        else
          match escape? rest with
          | some (d, n) =>
              (longString n rest).map fun (s, after) => (d :: s, after)
          | none => none
      else if isControl c && c != '\n' then none
      else (longString 0 rest).map fun (s, after) => (c :: s, after)

def longLiteral : List Char → Option (List Char × List Char)
  | [] => none
  | '\x27' :: '\x27' :: '\x27' :: rest =>
      let extra := (rest.takeWhile (· == '\x27')).take 2
      some (extra, rest.drop extra.length)
  | c :: rest =>
      if isControl c && c != '\n' then none
      else (longLiteral rest).map fun (s, after) => (c :: s, after)

def dropFirstNewline : List Char → List Char
  | '\n' :: rest => rest
  | cs => cs

def string? (cs : List Char) : Option (String × List Char) :=
  let found :=
    match cs with
    | '"' :: '"' :: '"' :: rest => longString 0 (dropFirstNewline rest)
    | '\x27' :: '\x27' :: '\x27' :: rest => longLiteral (dropFirstNewline rest)
    | '"' :: rest => basicString 0 rest
    | '\x27' :: rest => literalString rest
    | _ => none
  found.map fun (s, rest) => (String.ofList s, rest)

/-! ## Keys -/

def isBareKey (c : Char) : Bool :=
  ('a' ≤ c && c ≤ 'z') || ('A' ≤ c && c ≤ 'Z') || ('0' ≤ c && c ≤ '9') ||
    c == '_' || c == '-'

def simpleKey (cs : List Char) : Option (String × List Char) :=
  match cs with
  | '"' :: rest =>
      (basicString 0 rest).map fun (s, after) => (String.ofList s, after)
  | '\x27' :: rest =>
      (literalString rest).map fun (s, after) => (String.ofList s, after)
  | _ =>
      let (bare, rest) := cs.span isBareKey
      if bare.isEmpty then none else some (String.ofList bare, rest)

def dottedKey : (fuel : Nat) → List Char → Option (List String × List Char)
  | 0, _ => none
  | fuel + 1, cs => do
      let (key, rest) ← simpleKey cs
      match skip rest with
      | '.' :: more =>
          let (keys, after) ← dottedKey fuel (skip more)
          return (key :: keys, after)
      | after => return ([key], after)

/-! ## Numbers -/

def plainDigits (isDigit : Char → Bool) (ds : List Char) : Option (List Char) :=
  match ds with
  | [] => none
  | _ =>
      let groups := Text.splitOn '_' ds
      if groups.all fun g => !g.isEmpty && g.all isDigit
        then some groups.flatten else none

def radixNumber? (base : Nat) (ds : List Char) : Option Int := do
  let inBase (c : Char) : Bool := (Json.hexValue? c).any fun v =>
    decide (v < base)
  let digits ← plainDigits inBase ds
  let n :=
    digits.foldl (fun total d => base * total + (Json.hexValue? d).getD 0) 0
  return (n : Int)

def decimalInteger? (ds : List Char) : Option Nat := do
  let digits ← plainDigits Text.isAsciiDigit ds
  if digits.length > 1 ∧ digits.head? = some '0' then none
    else some (Text.digitsValue digits)

def real? (ds : List Char) : Option Number := do
  let (mantissa, power) := ds.span fun c => c != 'e' && c != 'E'
  let (whole, fraction) := mantissa.span (· != '.')
  let wholeDigits ← plainDigits Text.isAsciiDigit whole
  if wholeDigits.length > 1 ∧ wholeDigits.head? = some '0' then none
  let fractionText ←
    match fraction with
    | [] => some []
    | _ :: ds => (plainDigits Text.isAsciiDigit ds).map ('.' :: ·)
  let powerText ←
    match power with
    | [] => some []
    | _ :: '+' :: ds => (plainDigits Text.isAsciiDigit ds).map ('e' :: ·)
    | _ :: '-' :: ds => (plainDigits Text.isAsciiDigit ds).map ('e' :: '-' :: ·)
    | _ :: ds => (plainDigits Text.isAsciiDigit ds).map ('e' :: ·)
  if fraction.isEmpty && power.isEmpty then none
  return Number.ofText (String.ofList (wholeDigits ++ fractionText ++
    powerText))

def unsignedNumber? (ds : List Char) : Option Datum :=
  match decimalInteger? ds with
  | some n => some (.integer n)
  | none =>
      match ds with
      | ['i', 'n', 'f'] => some (.real Number.infinity)
      | ['n', 'a', 'n'] => some (.real (.nan false))
      | _ => (real? ds).map .real

def negated : Datum → Datum
  | .integer n => .integer (-n)
  | .real x => .real (-x)
  | d => d

def word? (ds : List Char) : Option Datum :=
  match ds with
  | ['t', 'r', 'u', 'e'] => some (.flag true)
  | ['f', 'a', 'l', 's', 'e'] => some (.flag false)
  | '0' :: 'x' :: rest => (radixNumber? 16 rest).map .integer
  | '0' :: 'o' :: rest => (radixNumber? 8 rest).map .integer
  | '0' :: 'b' :: rest => (radixNumber? 2 rest).map .integer
  | '+' :: rest => unsignedNumber? rest
  | '-' :: rest => (unsignedNumber? rest).map negated
  | _ => unsignedNumber? ds

def isWordChar (c : Char) : Bool :=
  isBareKey c || c == '+' || c == '.' || c == ':'

/-! ## Tables -/

abbrev Entries := List (Datum × Datum)

def find? (key : String) (entries : Entries) : Option Datum :=
  entries.lookup (.text key)

/-- Store a value under a path of keys that is still free. -/
def insertPath (keys : List String) (value : Datum) (entries : Entries) :
    Option Entries :=
  match keys with
  | [] => none
  | [key] =>
      match find? key entries with
      | some _ => none
      | none => some (Datum.insertEntry (.text key) value entries)
  | key :: rest =>
      match find? key entries with
      | none => (insertPath rest value []).map fun inner =>
          Datum.insertEntry (.text key) (.mapping inner) entries
      | some (.mapping inner) => (insertPath rest value inner).map fun inner =>
          Datum.insertEntry (.text key) (.mapping inner) entries
      | some _ => none

def openPath (keys : List String) (entries : Entries) : Option Entries :=
  match keys with
  | [] => some entries
  | key :: rest =>
      match find? key entries with
      | none => (openPath rest []).map fun inner =>
          Datum.insertEntry (.text key) (.mapping inner) entries
      | some (.mapping inner) => (openPath rest inner).map fun inner =>
          Datum.insertEntry (.text key) (.mapping inner) entries
      | some _ => none

/-! ## Values -/

mutual

def value : (fuel : Nat) → List Char → Option (Datum × List Char)
  | 0, _ => none
  | fuel + 1, cs =>
      match cs with
      | '[' :: rest =>
          (elements fuel (skipLines rest.length rest)).map fun (ds, after) =>
            (.list ds, after)
      | '\x7b' :: rest =>
          match skip rest with
          | '\x7d' :: after => some (.mapping [], after)
          | pairs =>
              (inlineEntries fuel [] pairs).map fun (entries, after) =>
                (.mapping entries, after)
      | _ =>
          match string? cs with
          | some (s, rest) => some (.text s, rest)
          | none =>
              let (ds, rest) := cs.span isWordChar
              (word? ds).map (·, rest)

def elements : (fuel : Nat) → List Char → Option (List Datum × List Char)
  | 0, _ => none
  | fuel + 1, cs =>
      match cs with
      | ']' :: after => some ([], after)
      | _ => do
          let (d, rest) ← value fuel cs
          match skipLines rest.length rest with
          | ',' :: more =>
              let (ds, after) ← elements fuel (skipLines more.length more)
              return (d :: ds, after)
          | ']' :: after => return ([d], after)
          | _ => none

def inlineEntries : (fuel : Nat) → Entries → List Char →
    Option (Entries × List Char)
  | 0, _, _ => none
  | fuel + 1, entries, cs => do
      let (keys, rest) ← dottedKey cs.length cs
      match skip rest with
      | '=' :: afterEqual =>
          let (d, afterValue) ← value fuel (skip afterEqual)
          let entries ← insertPath keys d entries
          match skip afterValue with
          | ',' :: more => inlineEntries fuel entries (skip more)
          | '\x7d' :: after => return (entries, after)
          | _ => none
      | _ => none

end

/-! ## Documents -/

structure Document where
  entries : Entries := []
  path : List String := []
  headings : List (List String) := []

def assignment (doc : Document) (cs : List Char) :
    Option (Document × List Char) := do
  let (keys, rest) ← dottedKey cs.length cs
  match skip rest with
  | '=' :: afterEqual =>
      let cs := skip afterEqual
      let (d, afterValue) ← value (2 * cs.length + 1) cs
      let entries ← insertPath (doc.path ++ keys) d doc.entries
      return ({ doc with entries := entries }, ← endLine afterValue)
  | _ => none

def heading (doc : Document) (cs : List Char) :
    Option (Document × List Char) := do
  let (keys, rest) ← dottedKey cs.length (skip cs)
  match rest with
  | ']' :: after =>
      if doc.headings.contains keys then none
      else
        let entries ← openPath keys doc.entries
        return (⟨entries, keys, keys :: doc.headings⟩, ← endLine after)
  | _ => none

def statements : (fuel : Nat) → Document → List Char → Option Document
  | 0, _, _ => none
  | fuel + 1, doc, cs =>
      match skipLines cs.length cs with
      | [] => some doc
      | '[' :: rest => do
          let (doc, after) ← heading doc rest
          statements fuel doc after
      | rest => do
          let (doc, after) ← assignment doc rest
          statements fuel doc after

def parse (source : String) : Option Datum :=
  let cs := source.toList
  (statements (cs.length + 1) {} cs).map fun doc => .mapping doc.entries

end Awk.Config.Toml
