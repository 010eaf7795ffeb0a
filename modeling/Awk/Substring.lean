import Awk.Number.Binary

/-!
The part of a text that a start and a length select.

Characters are numbered from one.  Start and length are rounded to the nearest
integers, a half to the even one; either may lie outside the text, or be
infinite.
-/

namespace Awk

inductive Edge where
  | below
  | at (n : Int)
  | above
  deriving DecidableEq, Repr

/-- Why a window has no place: both of its ends are infinite, in opposite
directions. -/
inductive WindowError where
  | startsAbove
  | startsBelow
  deriving DecidableEq, Repr

def Edge.ofNumber? (x : Number) : Option Edge :=
  match x.round? with
  | some n => some (.at n)
  | none =>
      if x.isNaN then none
      else if x.lt Number.zero then some .below
      else some .above

def window (cs : List Char) (first stop : Int) : List Char :=
  let first := max first 1
  let stop := min stop (cs.length + 1)
  (cs.drop (first - 1).toNat).take (stop - first).toNat

def windowFrom (cs : List Char) : Edge → List Char
  | .below => cs
  | .at n => window cs n (cs.length + 1)
  | .above => []

def windowOf (cs : List Char) (first length : Edge) :
    Except WindowError (List Char) :=
  match first, length with
  | .below, .above => .error .startsBelow
  | .above, .below => .error .startsAbove
  | .below, _ => .ok []
  | .above, _ => .ok []
  | .at _, .below => .ok []
  | .at n, .at k => .ok (window cs n (n + k))
  | .at n, .above => .ok (windowFrom cs (.at n))

/-- The part of a text from `start` on, up to `length` characters; empty if
either is NaN. -/
def substring (s : String) (start : Number) (length : Option Number) :
    Except WindowError String :=
  match Edge.ofNumber? start, length with
  | none, _ => .ok ""
  | some first, none => .ok (String.ofList (windowFrom s.toList first))
  | some first, some n =>
      match Edge.ofNumber? n with
      | none => .ok ""
      | some k => (windowOf s.toList first k).map String.ofList

end Awk
