import Awk.Format.Directive
import Awk.Text.Integer
import Awk.Value

/-!
Formatted output: `printf` and `sprintf`.

A format is scanned directive by directive.  A `*` takes a width or a precision
from the arguments, missing arguments are empty texts, and widths are bounded.
A percent sign that starts no directive stands for itself, and an unknown
conversion letter shows the directive unchanged.  A format is refused if a width
or a precision in it has more digits than are read, or if a number shown as text
has none.
-/

namespace Awk.Format

def maxWidth : Nat := 65536

inductive Size where
  | argument
  | given (digits : List Char)
  deriving DecidableEq, Repr

structure Spec where
  flags : List Char
  width : Option Size
  precision : Option Size
  conversion : Char
  deriving DecidableEq, Repr

/-! ## Scanning -/

def isFlag (c : Char) : Bool := c == '-' || c == '+' || c == ' ' || c == '#' ||
    c == '0'

def isLengthMark (c : Char) : Bool :=
  c == 'h' || c == 'l' || c == 'L' || c == 'q' || c == 'j' || c == 'z' ||
    c == 't'

def isConversion (c : Char) : Bool :=
  ('a' ≤ c && c ≤ 'z') || ('A' ≤ c && c ≤ 'Z') || c == '%'

def scanWidth : List Char → Option Size × List Char
  | '*' :: rest => (some .argument, rest)
  | cs =>
      let (ds, rest) := cs.span Text.isDigit
      if ds.isEmpty then (none, rest) else (some (.given ds), rest)

def scanPrecision : List Char → Option Size × List Char
  | '.' :: '*' :: rest => (some .argument, rest)
  | '.' :: cs =>
      let (ds, rest) := cs.span Text.isDigit
      (some (.given ds), rest)
  | cs => (none, cs)

def Spec.scan (cs : List Char) : Option (Spec × List Char) :=
  let (flags, afterFlags) := cs.span isFlag
  let (width, afterWidth) := scanWidth afterFlags
  let (precision, afterPrecision) := scanPrecision afterWidth
  match afterPrecision.dropWhile isLengthMark with
  | c :: rest =>
      if isConversion c then some (⟨flags, width, precision, c⟩, rest) else none
  | [] => none

structure SizeError where
  digits : Nat
  deriving DecidableEq, Repr

def Size.check : Size → Except SizeError Unit
  | .argument => .ok ()
  | .given ds =>
      if Text.digitLimit < ds.length then .error ⟨ds.length⟩ else .ok ()

def Spec.check (s : Spec) : Except SizeError Unit := do
  forM s.width Size.check
  forM s.precision Size.check

/-! ## Filling -/

def nextArgument : List Value → Value × List Value
  | [] => (Value.unset, [])
  | v :: rest => (v, rest)

def givenSize (ds : List Char) : Nat := min (Text.digitsValue ds) maxWidth

def sizeArgument (v : Value) : Int :=
  max (-(maxWidth : Int)) (min (maxWidth : Int) v.toInteger)

structure Ready where
  flags : List Char
  width : Option Nat
  precision : Option Nat
  deriving DecidableEq, Repr

namespace Ready

def directive (r : Ready) : Directive :=
  { Directive.ofFlags r.flags with width := r.width, precision := r.precision }

def text (r : Ready) : List Char :=
  '%' :: (r.flags ++ (r.width.map Decimal.digits).getD []
    ++ (r.precision.map fun p => '.' :: Decimal.digits p).getD [])

end Ready

/-- Take the sizes that are arguments.  A negative width aligns left, a negative
precision is none. -/
def Spec.resolve (s : Spec) (args : List Value) : Ready × List Value :=
  let (flags, width, args) :=
    match s.width with
    | none => (s.flags, none, args)
    | some (.given ds) => (s.flags, some (givenSize ds), args)
    | some .argument =>
        let (v, rest) := nextArgument args
        let n := sizeArgument v
        (if n < 0 then s.flags ++ ['-'] else s.flags, some n.natAbs, rest)
  let (precision, args) :=
    match s.precision with
    | none => (none, args)
    | some (.given ds) => (some (givenSize ds), args)
    | some .argument =>
        let (v, rest) := nextArgument args
        let n := sizeArgument v
        (if n < 0 then none else some n.natAbs, rest)
  (⟨flags, width, precision⟩, args)

def characterOf : Value → List Char
  | .text s => s.toList.take 1
  | .number x =>
      let n := x.toInteger
      if 0 ≤ n ∧ n < 0x110000 then [Char.ofNat n.toNat] else []

/-- Negative integers are shown in base eight and sixteen as 64-bit words. -/
def asWord (n : Int) : Int := if n < 0 then n % (Nat.pow 2 64 : Nat) else n

def convert (r : Ready) (conversion : Char) (v : Value) (template : String)
    (memory : Nat) : Except TemplateError (List Char) :=
  let d := r.directive
  match conversion with
  | 'd' | 'i' | 'u' =>
      match v.toNumber.truncate? with
      | some n => .ok (d.integer .decimal false n)
      | none =>
          let name := v.toNumber.specialText?.getD ""
          .ok ({ d with precision := none }.text name.toList)
  | 'o' => .ok (d.integer .octal false (asWord v.toInteger))
  | 'x' => .ok (d.integer .hex false (asWord v.toInteger))
  | 'X' => .ok (d.integer .hex true (asWord v.toInteger))
  | 'e' => .ok (d.real .exponential false v.toNumber)
  | 'E' => .ok (d.real .exponential true v.toNumber)
  | 'f' => .ok (d.real .fixed false v.toNumber)
  | 'F' => .ok (d.real .fixed true v.toNumber)
  | 'g' => .ok (d.real .general false v.toNumber)
  | 'G' => .ok (d.real .general true v.toNumber)
  | 'c' => .ok (d.text (characterOf v))
  | 's' => do return d.text (← v.toText template memory).toList
  | _ => .ok (r.text ++ [conversion])

inductive Piece where
  | literal (c : Char)
  | percent
  | directive (s : Spec)
  deriving DecidableEq, Repr

/-- Cut a non-empty format into its first piece and the rest, which is
shorter. -/
def nextPiece (c : Char) (rest : List Char) : Piece × List Char :=
  if c = '%' then
    match Spec.scan rest with
    | none => (.literal '%', rest)
    | some (s, after) =>
        if s.conversion = '%' then (.percent, after) else (.directive s, after)
  else (.literal c, rest)

def piecesFrom : Nat → List Char → List Piece
  | 0, _ => []
  | _, [] => []
  | fuel + 1, c :: rest =>
      let (p, after) := nextPiece c rest
      p :: piecesFrom fuel after

def pieces (format : List Char) : List Piece := piecesFrom format.length format

inductive FormatError where
  | size (e : SizeError)
  | template (e : TemplateError)
  deriving DecidableEq, Repr

def fillPieces (template : String) (memory : Nat) :
    List Piece → List Value → Except FormatError (List Char)
  | [], _ => .ok []
  | .literal c :: rest, args => do
      return c :: (← fillPieces template memory rest args)
  | .percent :: rest, args => do
      return '%' :: (← fillPieces template memory rest args)
  | .directive s :: rest, args => do
      s.check.mapError .size
      let (r, args) := s.resolve args
      let (v, args) := nextArgument args
      let shown ← (convert r s.conversion v template memory).mapError .template
      return shown ++ (← fillPieces template memory rest args)

/-- Fill a format with arguments; numbers shown as text go through the
template. -/
def printf (format : String) (args : List Value) (template : String)
    (memory : Nat) : Except FormatError String :=
  (fillPieces template memory (pieces format.toList) args).map String.ofList

end Awk.Format
