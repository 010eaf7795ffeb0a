import Awk.Regex.Matcher

/-!
Replacing matches, and cutting a text at matches.

Both work on the spans that a search returns, and are given the search as a
function.
-/

namespace Awk.Regex

/-! ## Replacement text -/

/-- In a replacement `&` stands for the match; a backslash makes `&` and itself
ordinary. -/
def fillReplacement (matched : List Char) : List Char → List Char
  | [] => []
  | '\\' :: '&' :: rest => '&' :: fillReplacement matched rest
  | '\\' :: '\\' :: rest => '\\' :: fillReplacement matched rest
  | c :: rest =>
      if c = '&' then matched ++ fillReplacement matched rest
      else c :: fillReplacement matched rest

def slice (text : Array Char) (start stop : Nat) : List Char :=
  (text.extract start stop).toList

/-- Replace from `pos` on, where `last` is the end of the match before.  An
empty match right behind it is passed over.  Returns the new text from `pos` on
and the number of replacements. -/
def substituteFrom (search : Nat → Option Span) (replacement : List Char)
    (text : Array Char) (everywhere : Bool) : Nat → Nat → Option Nat →
    List Char × Nat
  | 0, pos, _ => (slice text pos text.size, 0)
  | fuel + 1, pos, last =>
      if text.size < pos then ([], 0)
      else
        match search pos with
        | none => (slice text pos text.size, 0)
        | some m =>
            if m.start = m.stop ∧ last = some m.start then
              let (rest, count) :=
                substituteFrom search replacement text everywhere fuel
                  (m.start + 1) last
              (slice text pos (m.start + 1) ++ rest, count)
            else
              let before := slice text pos m.start
              let shown :=
                fillReplacement (slice text m.start m.stop) replacement
              let (kept, next) :=
                if m.start = m.stop then (slice text m.start (m.start + 1),
                  m.start + 1)
                else ([], m.stop)
              if everywhere then
                let (rest, count) :=
                  substituteFrom search replacement text everywhere fuel
                    next (some m.stop)
                (before ++ shown ++ kept ++ rest, count + 1)
              else (before ++ shown ++ kept ++ slice text next text.size, 1)

def substitute (search : Nat → Option Span) (replacement : List Char)
    (text : Array Char) (everywhere : Bool) : List Char × Nat :=
  substituteFrom search replacement text everywhere (text.size + 2) 0 none

def Pattern.substitute (p : Pattern) (replacement text : String)
    (everywhere : Bool) : String × Nat :=
  let chars := text.toList.toArray
  let search (pos : Nat) : Option Span := (p.search? chars pos).map Match.whole
  let (out, count) :=
    Regex.substitute search replacement.toList chars everywhere
  (String.ofList out, count)

/-! ## Cutting -/

def cutAt (text : Array Char) (pos : Nat) : List Span → List (List Char)
  | [] => [slice text pos text.size]
  | m :: rest =>
      if m.start = m.stop then cutAt text pos rest
      else slice text pos m.start :: cutAt text m.stop rest

def Pattern.split (p : Pattern) (text : String) : List String :=
  if text = "" then []
  else
    let chars := text.toList.toArray
    (cutAt chars 0 (p.matches chars)).map String.ofList

end Awk.Regex
