import Awk.Regex.Basic

/-!
Matching by backtracking, in order of priority.

`Node.run` is given what has to match after the node.  Of several ways to match
a node the first one whose continuation succeeds wins: the left alternative
before the right one, one more turn of a greedy repetition before its end.  A
turn of a repetition that took no characters is the last one.
-/

namespace Awk.Regex

structure Progress where
  pos : Nat
  groups : Array (Option Span)
  deriving DecidableEq, Repr

abbrev Continuation := Progress → Option Progress

/-- How a node matches: given where it starts and what has to follow. -/
abbrev Runner := Progress → Continuation → Option Progress

def Progress.span? (st : Progress) (index : Nat) : Option Span :=
  (st.groups[index]?).join

/-! ## Single steps -/

def isWordAt (text : Array Char) (asciiOnly : Bool) (i : Nat) : Bool :=
  match text[i]? with
  | none => false
  | some c => if asciiOnly then Text.isAsciiWord c else Text.isWord c

def isNewlineAt (text : Array Char) (i : Nat) : Bool := text[i]? == some '\n'

def Anchor.holds (text : Array Char) (a : Anchor) (pos : Nat) : Bool :=
  match a with
  | .textStart => pos == 0
  | .lineStart => pos == 0 || isNewlineAt text (pos - 1)
  | .textEnd => pos == text.size
  | .lastEnd =>
      pos == text.size || (pos + 1 == text.size && isNewlineAt text pos)
  | .lineEnd => pos == text.size || isNewlineAt text pos
  | .wordEdge negated asciiOnly =>
      if text.isEmpty then false
      else
        let before := pos != 0 && isWordAt text asciiOnly (pos - 1)
        let here := isWordAt text asciiOnly pos
        (before != here) != negated

def takeChar (text : Array Char) (p : Char → Bool) (st : Progress) :
    Option Progress :=
  match text[st.pos]? with
  | some c => if p c then some { st with pos := st.pos + 1 } else none
  | none => none

def repeatsText (text : Array Char) (folding : Folding) (i j : Nat) : Nat → Bool
  | 0 => true
  | n + 1 =>
      match text[i]?, text[j]? with
      | some c, some d =>
          folding.lower c.toNat == folding.lower d.toNat &&
            repeatsText text folding (i + 1) (j + 1) n
      | _, _ => false

/-! ## Repetition -/

def mustRun (turn : Runner) : Nat → Runner
  | 0, st, k => k st
  | n + 1, st, k => turn st fun st' => mustRun turn n st' k

def oneLess : Option Nat → Option Nat
  | none => none
  | some n => some (n - 1)

/-- Turns a greedy repetition may take; `last` is where its last turn
started. -/
def mayRunGreedy (turn : Runner) : Nat → Option Nat → Option Nat → Runner
  | 0, _, _, st, k => k st
  | fuel + 1, most, last, st, k =>
      if most == some 0 || last == some st.pos then k st
      else
        match turn st fun st' =>
          mayRunGreedy turn fuel (oneLess most) (some st.pos) st' k with
        | some r => some r
        | none => k st

def mayRunLazy (turn : Runner) : Nat → Option Nat → Option Nat → Runner
  | 0, _, _, st, k => k st
  | fuel + 1, most, last, st, k =>
      match k st with
      | some r => some r
      | none =>
          if most == some 0 || last == some st.pos then none
          else turn st fun st' =>
            mayRunLazy turn fuel (oneLess most) (some st.pos) st' k

def runPossessive (turn : Runner) : Nat → Option Nat → Option Nat → Progress →
    Progress
  | 0, _, _, st => st
  | fuel + 1, most, last, st =>
      if most == some 0 || last == some st.pos then st
      else
        match turn st some with
        | some st' => runPossessive turn fuel (oneLess most) (some st.pos) st'
        | none => st

def countChars (text : Array Char) (p : Char → Bool) : Nat → Nat → Nat
  | 0, _ => 0
  | n + 1, pos =>
      match text[pos]? with
      | some c => if p c then countChars text p n (pos + 1) + 1 else 0
      | none => 0

/-- Try the continuation after `least + extra` characters, then after one fewer,
down to `least`. -/
def tryDown (st : Progress) (least : Nat) (k : Continuation) :
    Nat → Option Progress
  | 0 => k { st with pos := st.pos + least }
  | extra + 1 =>
      match k { st with pos := st.pos + least + (extra + 1) } with
      | some r => some r
      | none => tryDown st least k extra

def runChars (text : Array Char) (p : Char → Bool) (least : Nat)
    (most : Option Nat) : Runner :=
  fun st k =>
    let room := text.size - st.pos
    let count :=
      countChars text p (match most with | some n => min n room | none => room)
        st.pos
    if count < least then none else tryDown st least k (count - least)

/-! ## Nodes -/

def Node.run (text : Array Char) : Node → Runner
  | .empty, st, k => k st
  | .chars s, st, k => (takeChar text s.contains st).bind k
  | .any newline, st, k =>
      (takeChar text (fun c => newline || c != '\n') st).bind k
  | .anchor a, st, k => if a.holds text st.pos then k st else none
  | .seq a b, st, k => a.run text st fun st' => b.run text st' k
  | .alt a b, st, k =>
      match a.run text st k with
      | some r => some r
      | none => b.run text st k
  | .group i body, st, k =>
      body.run text st fun st' =>
        k { st' with groups :=
          st'.groups.setIfInBounds i (some ⟨st.pos, st'.pos⟩) }
  | .repeat .greedy least most (.chars s), st, k =>
      runChars text s.contains least most st k
  | .repeat .greedy least most (.any newline), st, k =>
      runChars text (fun c => newline || c != '\n') least most st k
  | .repeat greed least most body, st, k =>
      let turn := body.run text
      let fuel := text.size + 2
      let extra := most.map (· - least)
      match greed with
      | .greedy =>
          mustRun turn least st fun st' =>
            mayRunGreedy turn fuel extra none st' k
      | .lazy =>
          mustRun turn least st fun st' => mayRunLazy turn fuel extra none st' k
      | .possessive =>
          match mustRun (fun st k => (turn st some).bind k) least st some with
          | some st' => k (runPossessive turn fuel extra none st')
          | none => none
  | .atomic body, st, k => (body.run text st some).bind k
  | .look back negated body, st, k =>
      if st.pos < back then (if negated then k st else none)
      else
        match body.run text { st with pos := st.pos - back } some with
        | some st' => if negated then none else k { st' with pos := st.pos }
        | none => if negated then k st else none
  | .backref i folding, st, k =>
      match st.span? i with
      | none => none
      | some span =>
          let n := span.stop - span.start
          if repeatsText text folding st.pos span.start n then k { st with
            pos := st.pos + n } else none
  | .whenGroup i yes no, st, k =>
      if (st.span? i).isSome then yes.run text st k else no.run text st k

/-! ## Searching -/

structure Match where
  whole : Span
  groups : List (Option Span)
  deriving DecidableEq, Repr

/-- Match at one position.  With `mustMove` a match that takes no characters
does not count. -/
def Pattern.matchAt? (p : Pattern) (text : Array Char) (pos : Nat)
    (mustMove : Bool) : Option Match :=
  let start : Progress := ⟨pos, Array.replicate (p.groups + 1) none⟩
  let finish : Continuation := fun st => if mustMove && st.pos == pos then none
      else some st
  (p.node.run text start finish).map fun st =>
    ⟨⟨pos, st.pos⟩, st.groups.toList.tail⟩

def Pattern.searchUpTo (p : Pattern) (text : Array Char) :
    Nat → Nat → Bool → Option Match
  | 0, _, _ => none
  | n + 1, pos, mustMove =>
      match p.matchAt? text pos mustMove with
      | some m => some m
      | none => p.searchUpTo text n (pos + 1) false

def Pattern.search? (p : Pattern) (text : Array Char) (pos : Nat) :
    Option Match :=
  p.searchUpTo text (text.size + 1 - pos) pos false

def Pattern.matchesFrom (p : Pattern) (text : Array Char) :
    Nat → Nat → Bool → List Span
  | 0, _, _ => []
  | fuel + 1, pos, mustMove =>
      match p.searchUpTo text (text.size + 1 - pos) pos mustMove with
      | none => []
      | some m =>
          m.whole :: p.matchesFrom text fuel m.whole.stop
            (m.whole.start == m.whole.stop)

/-- All matches in order.  After a match that took no characters the next one
has to take some or to start further on. -/
def Pattern.matches (p : Pattern) (text : Array Char) : List Span :=
  p.matchesFrom text (2 * text.size + 2) 0 false

end Awk.Regex
