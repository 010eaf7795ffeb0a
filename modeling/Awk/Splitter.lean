import Awk.Regex.Cache
import Awk.Regex.Substitute
import Awk.Text.Split

/-!
How a separator cuts a text into fields and an input into records.

A single space cuts at runs of blanks, the empty separator between all
characters, any other single character at itself, and a longer separator is a
pattern.  A separator that is no pattern is taken literally.
-/

namespace Awk

inductive Splitter where
  | blanks
  | characters
  | literal (separator : List Char)
  | pattern (p : Regex.Pattern)
  deriving DecidableEq, Repr

namespace Splitter

/-- The splitter of a field separator that needs no pattern. -/
def ofFieldSeparator? (separator : String) : Option Splitter :=
  match separator.toList with
  | [] => some .characters
  | [' '] => some .blanks
  | ['\\'] => none
  | [c] => some (.literal [c])
  | _ => none

def ofRecordSeparator? (separator : String) : Option Splitter :=
  match separator.toList with
  | [c] => some (.literal [c])
  | _ => none

def ofPattern (separator : String) : Except Regex.PatternError Regex.Pattern →
    Except Regex.PatternError Splitter
  | .ok p => .ok (.pattern p)
  | .error .malformed => .ok (.literal separator.toList)
  | .error e => .error e

def split (s : Splitter) (text : String) : List String :=
  if text = "" then []
  else
    match s with
    | .blanks => (Text.words Text.isFieldBlank text.toList).map String.ofList
    | .characters => text.toList.map String.singleton
    | .literal [c] => (Text.splitOn c text.toList).map String.ofList
    | .literal separator =>
        (Text.splitOnText separator text.toList).map String.ofList
    | .pattern p => p.split text

/-- The records of an input: its pieces without one empty piece at the end. -/
def records (s : Splitter) (text : String) : List String :=
  Text.dropLastEmpty (s.split text)

def paragraphs (text : String) : List String :=
  (Text.paragraphs text.toList).map String.ofList

def splitWith (compile : String → Except Regex.PatternError Regex.Pattern)
    (text separator : String) :
    Except Regex.PatternError (List String) :=
  if text = "" then .ok []
  else
    match ofFieldSeparator? separator with
    | some s => .ok (s.split text)
    | none =>
        (ofPattern separator (compile separator)).map fun s => s.split text

def recordsWith (compile : String → Except Regex.PatternError Regex.Pattern)
    (text separator : String) :
    Except Regex.PatternError (List String) :=
  if text = "" then .ok []
  else if separator = "" then .ok (paragraphs text)
  else
    match ofRecordSeparator? separator with
    | some s => .ok (s.records text)
    | none =>
        (ofPattern separator (compile separator)).map fun s => s.records text

end Splitter

end Awk
