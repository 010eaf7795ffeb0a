/-!
What the bodies of literals mean.

In a string a backslash starts an escape: up to three octal digits, a named
character, or a newline that is skipped.  Other escapes keep their backslash, so
that they still work in a string used as a pattern.  In a pattern only the slash
is unescaped.
-/

namespace Awk.Source

def escapedChar? : Char → Option Char
  | '"' => some '"'
  | '\\' => some '\\'
  | '/' => some '/'
  | 'n' => some '\n'
  | 't' => some '\t'
  | 'r' => some '\r'
  | 'a' => some '\x07'
  | 'b' => some '\x08'
  | 'f' => some '\x0c'
  | 'v' => some '\x0b'
  | _ => none

def octalValue? (c : Char) : Option Nat :=
  if '0' ≤ c ∧ c ≤ '7' then some (c.toNat - '0'.toNat) else none

/-- What an escape means that is not octal: nothing, one character, or
itself. -/
def unescaped (c : Char) : List Char :=
  if c = '\n' then []
  else
    match escapedChar? c with
    | some d => [d]
    | none => ['\\', c]

inductive StringState where
  | plain
  | escape
  | octal (value left : Nat)
  deriving DecidableEq, Repr

def decodeStringFrom : StringState → List Char → List Char
  | .plain, [] => []
  | .escape, [] => ['\\']
  | .octal value _, [] => [Char.ofNat value]
  | .plain, c :: rest =>
      if c = '\\' then decodeStringFrom .escape rest
        else c :: decodeStringFrom .plain rest
  | .escape, c :: rest =>
      match octalValue? c with
      | some d => decodeStringFrom (.octal d 2) rest
      | none => unescaped c ++ decodeStringFrom .plain rest
  | .octal value left, c :: rest =>
      match left, octalValue? c with
      | more + 1, some d => decodeStringFrom (.octal (value * 8 + d) more) rest
      | _, _ =>
          Char.ofNat value :: (if c = '\\' then decodeStringFrom .escape rest
            else c :: decodeStringFrom .plain rest)

def unescapeString (body : String) : String :=
  String.ofList (decodeStringFrom .plain body.toList)

def decodeRegexChars : List Char → List Char
  | [] => []
  | [c] => [c]
  | c :: d :: rest =>
      if c = '\\' then
        if d = '/' then '/' :: decodeRegexChars rest
          else '\\' :: d :: decodeRegexChars rest
      else c :: decodeRegexChars (d :: rest)

def unescapeRegex (body : String) : String :=
  String.ofList (decodeRegexChars body.toList)

end Awk.Source
