import Awk.Number.Shortest
import Awk.Text.Integer
import Awk.Text.Quoted

/-!
Data that settings are made of: scalars, lists and mappings.

A mapping keeps its keys in the order in which they came in; a key that comes
again replaces the value it had.
-/

namespace Awk.Config

inductive Datum where
  | null
  | flag (b : Bool)
  | integer (n : Int)
  | real (x : Number)
  | text (s : String)
  | list (items : List Datum)
  | mapping (entries : List (Datum × Datum))
  deriving Repr, BEq

instance : Inhabited Datum := ⟨.null⟩

namespace Datum

def insertEntry (key value : Datum) : List (Datum × Datum) →
    List (Datum × Datum)
  | [] => [(key, value)]
  | (k, v) :: rest =>
      if k == key then (k, value) :: rest
        else (k, v) :: insertEntry key value rest

def ofPairs (pairs : List (Datum × Datum)) : Datum :=
  .mapping (pairs.foldl (fun entries (key, value) =>
    insertEntry key value entries) [])

/-! ## Texts -/

def flagText (b : Bool) : String := if b then "True" else "False"

mutual

def shown : Datum → String
  | .null => "None"
  | .flag b => flagText b
  | .integer n => toString n
  | .real x => x.shortestText
  | .text s => Text.quoted s
  | .list items => "[" ++ ", ".intercalate (shownAll items) ++ "]"
  | .mapping entries =>
      "\x7b" ++ ", ".intercalate (shownEntries entries) ++ "\x7d"

def shownAll : List Datum → List String
  | [] => []
  | d :: rest => shown d :: shownAll rest

def shownEntries : List (Datum × Datum) → List String
  | [] => []
  | (key, value) :: rest =>
      (shown key ++ ": " ++ shown value) :: shownEntries rest

end

def isWritten (n : Int) : Bool := n.natAbs < Nat.pow 10 Text.digitLimit

mutual

/-- Whether every integer of a datum can be written, so that it has a text. -/
def hasText : Datum → Bool
  | .integer n => isWritten n
  | .list items => haveText items
  | .mapping entries => entriesHaveText entries
  | .null | .flag _ | .real _ | .text _ => true

def haveText : List Datum → Bool
  | [] => true
  | d :: rest => hasText d && haveText rest

def entriesHaveText : List (Datum × Datum) → Bool
  | [] => true
  | (key, value) :: rest => hasText key && hasText value && entriesHaveText rest

end

def toText : Datum → String
  | .text s => s
  | d => d.shown

end Datum

end Awk.Config
