import Awk.Format.Directive
import Awk.Number.Shortest
import Awk.Text.Digit

/-!
Templates for one number, as held by `CONVFMT` and `OFMT`.

A template is usable when it has exactly one directive and that directive can
show a real; two percent signs stand for one.  `%s` shows the shortest text that
reads back, `%d` the integer part.  Anything else, such as a template without a
directive, is passed over, and the default template takes its place.  A usable
template can still ask for more than can be written.
-/

namespace Awk.Format

def defaultTemplate : String := "%.6g"

def scanBounded (bound : Nat) (cs : List Char) :
    Option (Option Nat × List Char) :=
  let (ds, rest) := cs.span Text.isAsciiDigit
  if ds.isEmpty then some (none, rest)
  else
    let n := Text.digitsValue ds
    if n ≤ bound then some (some n, rest) else none

/-- Flags, width, precision and one length mark after a percent sign. -/
def scanDirective (cs : List Char) : Option (Directive × List Char) := do
  let (flags, afterFlags) := cs.span fun c => "-+ #0".toList.contains c
  let (width, afterWidth) ← scanBounded 9223372036854775807 afterFlags
  let (precision, afterPrecision) ←
    match afterWidth with
    | '.' :: rest =>
        (scanBounded 2147483647 rest).map fun (p, r) => (some (p.getD 0), r)
    | rest => some (none, rest)
  let afterMark :=
    match afterPrecision with
    | 'h' :: rest | 'l' :: rest | 'L' :: rest => rest
    | rest => rest
  return ({ Directive.ofFlags flags with width := width,
                                         precision := precision }, afterMark)

inductive TemplateError where
  | precision
  | memory
  deriving DecidableEq, Repr

/-- Why a template is not filled; one without a meaning is passed over. -/
inductive Unfilled where
  | unusable
  | failed (e : TemplateError)
  deriving DecidableEq, Repr

def maxIntegerPrecision : Nat := 2147483644

def maxPrecision : Nat := 2147483647

inductive Shape where
  | integer
  | real (style : RealStyle) (upper : Bool)
  | shortest
  deriving DecidableEq, Repr

namespace Shape

def ofLetter? : Char → Option Shape
  | 'd' | 'i' | 'u' => some .integer
  | 'e' => some (.real .exponential false)
  | 'E' => some (.real .exponential true)
  | 'f' => some (.real .fixed false)
  | 'F' => some (.real .fixed true)
  | 'g' => some (.real .general false)
  | 'G' => some (.real .general true)
  | 's' | 'r' | 'a' => some .shortest
  | _ => none

def check (s : Shape) (d : Directive) (memory : Nat) :
    Except TemplateError Unit :=
  let precision := d.precision.getD 0
  if s = .integer ∧ maxIntegerPrecision < precision then .error .precision
  else if memory < max (d.width.getD 0) precision then .error .memory
  else .ok ()

def fill (s : Shape) (d : Directive) (x : Number) : List Char :=
  match s with
  | .integer => d.integer .decimal false x.toInteger
  | .real .exponential upper =>
      if d.precision = some maxPrecision then
        { d with precision := some 0 }.real .exponential upper x
      else d.real .exponential upper x
  | .real style upper => d.real style upper x
  | .shortest => d.text x.shortestText.toList

end Shape

/--
Fill a template with a finite number, with at most `fuel` directives.  The
argument is `none` once it has been used.
-/
def fillFrom (memory : Nat) :
    Nat → Option Number → List Char → Except Unfilled (List Char)
  | 0, _, _ => .error .unusable
  | fuel + 1, arg, cs =>
      let (literal, rest) := cs.span (· != '%')
      match rest with
      | [] => if arg.isNone then .ok literal else .error .unusable
      | _ :: '%' :: after => do
          return literal ++ '%' :: (← fillFrom memory fuel arg after)
      | _ :: afterPercent =>
          match scanDirective afterPercent, arg with
          | some (d, letter :: after), some x =>
              match Shape.ofLetter? letter with
              | none => .error .unusable
              | some shape => do
                  (shape.check d memory).mapError .failed
                  let shown := shape.fill d x
                  return literal ++ shown ++ (← fillFrom memory fuel none after)
          | _, _ => .error .unusable

def fill (memory : Nat) (template : String) (x : Number) :
    Except Unfilled String :=
  let cs := template.toList
  (fillFrom memory (cs.length + 1) (some x) cs).map String.ofList

end Awk.Format

namespace Awk.Number

def specialText? : Number → Option String
  | .nan negative => some (if negative then "-nan" else "nan")
  | .real x =>
      if x.isInf then some (if x < 0.0 then "-inf" else "inf") else none

/-- An integer below `10 ^ 16` in magnitude, which is written without a
template. -/
def plainInteger? (x : Number) : Option Int :=
  match x with
  | .nan _ => none
  | .real f =>
      match Binary.ofFloat? f with
      | none => none
      | some b =>
          let (num, den) := b.ratio
          if num % den = 0 ∧ num / den < Nat.pow 10 16 then some b.truncate
            else none

def textThrough (x : Number) (template : String) (memory : Nat) :
    Except Format.TemplateError String :=
  match Format.fill memory template x with
  | .ok s => .ok s
  | .error (.failed e) => .error e
  | .error .unusable =>
      match Format.fill memory Format.defaultTemplate x with
      | .ok s => .ok s
      | .error (.failed e) => .error e
      | .error .unusable => .ok ""

/-- The text of a number: integers plainly, others through the template. -/
def text (x : Number) (template : String) (memory : Nat) :
    Except Format.TemplateError String :=
  match x.specialText? with
  | some s => .ok s
  | none =>
      match x.plainInteger? with
      | some n =>
          let ds := Decimal.digits n.natAbs
          .ok (String.ofList (if n < 0 then '-' :: ds else ds))
      | none => x.textThrough template memory

end Awk.Number
