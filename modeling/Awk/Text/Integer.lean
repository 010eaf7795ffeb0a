import Awk.Text.Blank
import Awk.Text.Digit

/-!
Integers as settings spell them: blanks around, an optional sign, digits of any
script, and single underscores between digits.  The number of digits is limited.
-/

namespace Awk.Text

/-- White space around an integer.  Of the ASCII characters only those count
that separate words. -/
def isAround (c : Char) : Bool := isNumberBlank c ||
    (128 ≤ c.toNat && isSpace c)

def readDigits (total : Nat) : List Char → Option Nat
  | [] => none
  | c :: rest =>
      match digitValue? c with
      | none => none
      | some d =>
          match rest with
          | [] => some (10 * total + d)
          | '_' :: more => readDigits (10 * total + d) more
          | more => readDigits (10 * total + d) more

def signAndDigits (s : String) : Bool × List Char :=
  match strip isAround s.toList with
  | '-' :: ds => (true, ds)
  | '+' :: ds => (false, ds)
  | ds => (false, ds)

def digitLimit : Nat := 4300

def readInteger? (s : String) : Option Int :=
  let (negative, ds) := signAndDigits s
  if digitLimit < ds.countP isDigit then none
  else (readDigits 0 ds).map fun n => if negative then -(n : Int) else (n : Int)

def countDigits (count : Nat) : List Char → Option Nat
  | [] => some count
  | c :: rest =>
      if isDigit c then countDigits (count + 1) rest
      else if c = '_' then if rest.head?.any isDigit then countDigits count rest
        else none
      else some count

/-- How many digits the text of an integer starts with, if those are too many,
whatever comes behind them. -/
def excessDigits? (s : String) : Option Nat :=
  let ds := (signAndDigits s).2
  if ds.head?.any isDigit then (countDigits 0 ds).filter fun n => digitLimit < n
    else none

end Awk.Text
