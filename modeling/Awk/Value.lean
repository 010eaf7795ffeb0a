import Awk.Format.Template
import Awk.Number.Numeral

/-!
Values of the language: a number or a text.

There are no truth values: comparisons and logical operators give zero or one.
A text that spells no number converts to zero.  A number converts to a text
unless the template asks for more than can be written.
-/

namespace Awk

inductive Value where
  | number (x : Number)
  | text (s : String)
  deriving DecidableEq, Repr

namespace Value

instance : Inhabited Value := ⟨.text ""⟩

def unset : Value := .text ""

def ofBool (b : Bool) : Value := .number (Number.ofBool b)

/-- Numbers are true unless they are zero, texts unless they are empty. -/
def truth : Value → Bool
  | .number x => !x.isZero
  | .text s => s != ""

def toNumber : Value → Number
  | .number x => x
  | .text s => Number.ofText s

/-- Numbers are written through the template unless they are integers. -/
def toText (v : Value) (template : String) (memory : Nat) :
    Except Format.TemplateError String :=
  match v with
  | .number x => x.text template memory
  | .text s => .ok s

def isNumeric : Value → Bool
  | .number _ => true
  | .text s => Number.isSpelledBy s

def toInteger (v : Value) : Int := v.toNumber.toInteger

end Value

/-! ## Comparison -/

inductive Comparison where
  | lt
  | le
  | gt
  | ge
  | eq
  | ne
  deriving DecidableEq, Repr

namespace Comparison

def spelling : Comparison → String
  | .lt => "<"
  | .le => "<="
  | .gt => ">"
  | .ge => ">="
  | .eq => "=="
  | .ne => "!="

def ofSpelling? : String → Option Comparison
  | "<" => some .lt
  | "<=" => some .le
  | ">" => some .gt
  | ">=" => some .ge
  | "==" => some .eq
  | "!=" => some .ne
  | _ => none

def ofNumbers (op : Comparison) (x y : Number) : Bool :=
  match op with
  | .lt => x.lt y
  | .le => x.le y
  | .gt => y.lt x
  | .ge => y.le x
  | .eq => x.eq y
  | .ne => !x.eq y

def ofTexts (op : Comparison) (s t : String) : Bool :=
  match op with
  | .lt => s < t
  | .le => !(t < s)
  | .gt => t < s
  | .ge => !(s < t)
  | .eq => s == t
  | .ne => s != t

/-- By number when both sides look numeric, by text otherwise. -/
def holds (op : Comparison) (a b : Value) (template : String) (memory : Nat) :
    Except Format.TemplateError Bool :=
  if a.isNumeric && b.isNumeric then .ok (op.ofNumbers a.toNumber b.toNumber)
  else do
    let s ← a.toText template memory
    let t ← b.toText template memory
    return op.ofTexts s t

end Comparison

end Awk
