import Awk.Text.Blank

/-!
Cutting a text into pieces.

`splitOn` and `splitOnText` keep every piece, so that joining the pieces with
the separator gives the text back.  `words` are the pieces between runs of
blanks and `paragraphs` those between runs of two or more newlines, of a text
that is stripped first.
-/

namespace Awk.Text

def splitOnFrom (c : Char) (piece : List Char) : List Char → List (List Char)
  | [] => [piece.reverse]
  | x :: rest =>
      if x = c then piece.reverse :: splitOnFrom c [] rest
        else splitOnFrom c (x :: piece) rest

def splitOn (c : Char) (cs : List Char) : List (List Char) :=
  splitOnFrom c [] cs

def dropFront? : List Char → List Char → Option (List Char)
  | [], cs => some cs
  | _ :: _, [] => none
  | f :: front, c :: cs => if f = c then dropFront? front cs else none

/-- Pieces between occurrences of a text, found from left to right; `skip`
characters are passed. -/
def splitOnTextFrom (sep : List Char) (skip : Nat) (piece : List Char) :
    List Char → List (List Char)
  | [] => [piece.reverse]
  | x :: rest =>
      match skip with
      | n + 1 => splitOnTextFrom sep n piece rest
      | 0 =>
          if (dropFront? sep (x :: rest)).isSome then
            piece.reverse :: splitOnTextFrom sep (sep.length - 1) [] rest
          else splitOnTextFrom sep 0 (x :: piece) rest

def splitOnText (sep cs : List Char) : List (List Char) :=
  splitOnTextFrom sep 0 [] cs

/-- Pieces between runs of characters in `blank`; `gap` tells that a run is
being passed. -/
def splitOnRunsFrom (blank : Char → Bool) (gap : Bool) (piece : List Char) :
    List Char → List (List Char)
  | [] => [piece.reverse]
  | x :: rest =>
      if blank x then
        if gap then splitOnRunsFrom blank true piece rest
        else piece.reverse :: splitOnRunsFrom blank true [] rest
      else splitOnRunsFrom blank false (x :: piece) rest

def splitOnRuns (blank : Char → Bool) (cs : List Char) : List (List Char) :=
  splitOnRunsFrom blank false [] cs

def words (blank : Char → Bool) (cs : List Char) : List (List Char) :=
  match strip blank cs with
  | [] => []
  | stripped => splitOnRuns blank stripped

/-- Stretches between runs of two or more newlines; `gap` tells that such a run
is being passed. -/
def paragraphsFrom (gap : Bool) (piece : List Char) :
    List Char → List (List Char)
  | [] => [piece.reverse]
  | x :: rest =>
      if x = '\n' then
        if gap then paragraphsFrom true piece rest
        else if rest.head? = some '\n' then piece.reverse ::
          paragraphsFrom true [] rest
        else paragraphsFrom false (x :: piece) rest
      else paragraphsFrom false (x :: piece) rest

def paragraphs (cs : List Char) : List (List Char) :=
  match strip (· == '\n') cs with
  | [] => []
  | stripped => paragraphsFrom false [] stripped

def dropLastEmpty (pieces : List String) : List String :=
  if pieces.getLast? = some "" then pieces.dropLast else pieces

def lines (s : String) : List String :=
  dropLastEmpty ((splitOn '\n' s.toList).map String.ofList)

def find? (part : List Char) (pos : Nat) (cs : List Char) : Option Nat :=
  if (dropFront? part cs).isSome then some pos
  else
    match cs with
    | [] => none
    | _ :: rest => find? part (pos + 1) rest

end Awk.Text
