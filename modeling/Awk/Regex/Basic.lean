import Awk.Regex.CharSet

/-!
Patterns as trees.

Flags are resolved while a pattern is read, so a tree carries its meaning in
itself: a set knows how it treats case, a dot whether it matches a newline, an
anchor whether lines count.
-/

namespace Awk.Regex

inductive Anchor where
  | textStart
  | lineStart
  | textEnd
  | lastEnd
  | lineEnd
  | wordEdge (negated asciiOnly : Bool)
  deriving DecidableEq, Repr

inductive Greed where
  | greedy
  | lazy
  | possessive
  deriving DecidableEq, Repr

inductive Node where
  | empty
  | chars (s : CharSet)
  | any (newline : Bool)
  | anchor (a : Anchor)
  | seq (first second : Node)
  | alt (first second : Node)
  | group (index : Nat) (body : Node)
  | repeat (greed : Greed) (least : Nat) (most : Option Nat) (body : Node)
  | atomic (body : Node)
  | look (back : Nat) (negated : Bool) (body : Node)
  | backref (index : Nat) (folding : Folding)
  | whenGroup (index : Nat) (yes no : Node)
  deriving DecidableEq, Repr

structure Pattern where
  node : Node
  groups : Nat
  deriving DecidableEq, Repr

inductive PatternError where
  | malformed
  | repeatTooLarge
  | tooManyDigits (count : Nat)
  | flagConflict
  deriving DecidableEq, Repr

structure Span where
  start : Nat
  stop : Nat
  deriving DecidableEq, Repr

/-! ## Width -/

def maxWidth : Nat := Nat.pow 2 64

/-- Least and greatest number of characters a node takes, given those of the
groups. -/
def Node.width (groups : Nat → Nat × Nat) : Node → Nat × Nat
  | .empty | .anchor _ | .look .. => (0, 0)
  | .chars _ | .any _ => (1, 1)
  | .seq a b =>
      let (l, h) := a.width groups
      let (l', h') := b.width groups
      (min (l + l') maxWidth, min (h + h') maxWidth)
  | .alt a b =>
      let (l, h) := a.width groups
      let (l', h') := b.width groups
      (min l l', max h h')
  | .group _ body | .atomic body => body.width groups
  | .repeat _ least most body =>
      let (l, h) := body.width groups
      let high := match most with
        | some n => h * n
        | none => if h = 0 then 0 else maxWidth
      (min (l * least) maxWidth, min high maxWidth)
  | .backref i _ => groups i
  | .whenGroup _ yes no =>
      let (l, h) := yes.width groups
      let (l', h') := no.width groups
      (min l l', max h h')

end Awk.Regex
