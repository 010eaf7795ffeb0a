import Awk.Text.Blank

/-!
Excerpts: the lines around a place of a source, with a caret below it.
-/

namespace Awk.Source

def linesFrom (line : List Char) : List Char → List (List Char)
  | [] => if line.isEmpty then [] else [line.reverse]
  | '\r' :: '\n' :: rest => line.reverse :: linesFrom [] rest
  | c :: rest =>
      if Text.isLineEnd c then line.reverse :: linesFrom [] rest
        else linesFrom (c :: line) rest

def sourceLines (source : String) : List String :=
  (linesFrom [] source.toList).map String.ofList

def blanks (n : Nat) : String := String.ofList (List.replicate n ' ')

def lineNumber (width n : Nat) : String :=
  let digits := toString n
  blanks (width - digits.length) ++ digits

def excerptLines (width : Nat) (marked : Int) (column : Option Int) :
    List (String × Nat) → List String
  | [] => []
  | (text, i) :: rest =>
      let isMarked := marked == (i : Int)
      let shown := (if isMarked then "> " else "  ") ++ lineNumber width i ++
        " | " ++ text
      let caret :=
        match column with
        | some c =>
            if isMarked then ["  " ++ blanks width ++ " | " ++
              blanks (c - 1).toNat ++ "^"] else []
        | none => []
      shown :: caret ++ excerptLines width marked column rest

/-- The lines within `radius` of a line; the line itself is marked, and a caret
stands below the column if one is given.  Nothing is shown for a line the source
does not have. -/
def excerpt (source : String) (line : Int) (column : Option Int)
    (radius : Int) : String :=
  let lines := sourceLines source
  let count : Int := lines.length
  if line < 1 ∨ line > count then ""
  else
    let first := max 1 (line - radius)
    let last := min count (line + radius)
    let width := (toString last).length
    let shown := (lines.zipIdx 1).filter fun (_, i) => first ≤ (i : Int) &&
      (i : Int) ≤ last
    "\n".intercalate (excerptLines width line column shown)

end Awk.Source
