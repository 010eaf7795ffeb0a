import Std.Data.HashMap
import Awk.Regex.Dialect
import Awk.Regex.Matcher

/-!
Compiled patterns, kept by their text and flags.  The cache is emptied when it
is full, so it stays small, and what it returns is always what compiling afresh
would give.
-/

namespace Awk.Regex

def maxCached : Nat := 512

structure Key where
  text : String
  flags : Flags := {}
  deriving DecidableEq, Repr, Hashable

def Key.compile (k : Key) : Except PatternError Pattern :=
  compileWith k.flags k.text

structure Cache where
  patterns : Std.HashMap Key Pattern := {}

instance : Inhabited Cache := ⟨{}⟩

namespace Cache

def size (c : Cache) : Nat := c.patterns.size

/-- Keep a pattern, after emptying a full cache. -/
def keep (c : Cache) (k : Key) (p : Pattern) : Cache :=
  let room := if maxCached ≤ c.size then ({} : Cache) else c
  { room with patterns := room.patterns.insert k p }

def lookup (c : Cache) (k : Key) : Except PatternError (Pattern × Cache) :=
  match c.patterns[k]? with
  | some p => .ok (p, c)
  | none =>
      match k.compile with
      | .ok p => .ok (p, c.keep k p)
      | .error e => .error e

end Cache

def PatternError.isPassedOver : PatternError → Bool
  | .malformed | .repeatTooLarge => true
  | .tooManyDigits _ | .flagConflict => false

/-- Whether a pattern occurs in a text.  What is passed over occurs nowhere. -/
def occurs (compiled : Except PatternError Pattern) (text : String) :
    Except PatternError Bool :=
  match compiled with
  | .ok p => .ok (p.search? text.toList.toArray 0).isSome
  | .error e => if e.isPassedOver then .ok false else .error e

end Awk.Regex
