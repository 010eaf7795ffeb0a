import Awk.Text.Blank
import Awk.Text.Case
import Awk.Text.Digit

/-!
Sets of characters in patterns: single characters, ranges and classes, possibly
negated, possibly blind to case.

When case is ignored a character is looked up in lower case, and a member stands
for its lower case form together with the few lower case characters that count
as the same letter.
-/

namespace Awk.Regex

inductive CharClass where
  | digit
  | space
  | word
  deriving DecidableEq, Repr

inductive Member where
  | char (n : Nat)
  | range (lo hi : Nat)
  | category (k : CharClass) (negated : Bool)
  deriving DecidableEq, Repr

inductive Folding where
  | exact
  | ascii
  | unicode
  deriving DecidableEq, Repr

structure CharSet where
  negated : Bool
  members : List Member
  folding : Folding
  asciiOnly : Bool
  deriving DecidableEq, Repr

namespace CharClass

def contains (k : CharClass) (asciiOnly : Bool) (n : Nat) : Bool :=
  let c := Char.ofNat n
  if asciiOnly && 128 ≤ n then false
  else
    match k, asciiOnly with
    | .digit, true => Text.isAsciiDigit c
    | .digit, false => Text.isDigit c
    | .space, true => Text.isNumberBlank c
    | .space, false => Text.isSpace c
    | .word, true => Text.isAsciiWord c
    | .word, false => Text.isWord c

end CharClass

namespace Folding

def lower (f : Folding) (n : Nat) : Nat :=
  match f with
  | .exact => n
  | .ascii => Text.lowerAsciiChar n
  | .unicode => Text.lowerChar n

def isCased (f : Folding) (n : Nat) : Bool :=
  match f with
  | .exact => false
  | .ascii => (0x41 ≤ n && n ≤ 0x5a) || (0x61 ≤ n && n ≤ 0x7a)
  | .unicode => Text.isCased n

end Folding

/-- Lower case characters that count as the same letter as the lower case
character `n`. -/
def sameLetter (n : Nat) : List Nat :=
  n :: ((Text.foldPartners.lookup n).getD [])

def upperForms (n : Nat) : List Nat :=
  (if Text.lowerChar n = n then [n] else []) ++
    Text.lowerRuns.filterMap fun r =>
      let m := ((n : Int) - r.delta).toNat
      if r.first ≤ m ∧ m ≤ r.last ∧ (m - r.first) % r.step = 0 ∧
        (m : Int) + r.delta = n then some m
      else none

def inRange (lo hi n : Nat) : Bool := lo ≤ n && n ≤ hi

def basicPlane : Nat := 0x10000

namespace Member

def contains (m : Member) (asciiOnly : Bool) (n : Nat) : Bool :=
  match m with
  | .char a => a == n
  | .range lo hi => inRange lo hi n
  | .category k negated => k.contains asciiOnly n != negated

/-- Whether a member holds the lower case character `n` when case is ignored.
Above the basic plane a character that is not alone in its set stands for itself
only. -/
def containsFolded (m : Member) (f : Folding) (alone asciiOnly : Bool)
    (n : Nat) : Bool :=
  match m, f with
  | m, .exact => m.contains asciiOnly n
  | .category k negated, _ => k.contains asciiOnly n != negated
  | .char a, .ascii => Text.lowerAsciiChar a == n
  | .range lo hi, .ascii =>
      inRange lo hi n && Text.lowerAsciiChar n == n
        || (inRange 0x61 0x7a n && inRange lo hi (n - 32))
  | .char a, .unicode =>
      if a < basicPlane || alone then (sameLetter (Text.lowerChar a)).contains n
        else a == n
  | .range lo hi, .unicode =>
      ((sameLetter n).any fun q => (upperForms q).any fun i => i < basicPlane &&
        inRange lo hi i)
        || (basicPlane ≤ hi && (inRange lo hi n ||
          (Text.upperChars n).any (inRange lo hi)))

def isCased (m : Member) (f : Folding) : Bool :=
  match m with
  | .char a => f.isCased a
  | .range lo hi =>
      basicPlane ≤ hi || (List.range (hi + 1 - lo)).any fun i =>
        f.isCased (lo + i)
  | .category _ _ => false

end Member

namespace CharSet

def single (n : Nat) (folding : Folding) (asciiOnly : Bool) : CharSet :=
  ⟨false, [.char n], folding, asciiOnly⟩

def contains (s : CharSet) (c : Char) : Bool :=
  let n := c.toNat
  let found :=
    match s.folding with
    | .exact => s.members.any fun m => m.contains s.asciiOnly n
    | f =>
        let alone := s.members.length == 1
        let probe := if s.members.any fun m => m.isCased f then f.lower n else n
        s.members.any fun m => m.containsFolded f alone s.asciiOnly probe
  found != s.negated

end CharSet

end Awk.Regex
