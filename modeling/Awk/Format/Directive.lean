import Awk.Number.Decimal

/-!
A formatting directive and the three shapes of output it lays out.

Text is cut to the precision.  Integers get leading zeros up to the precision,
and the alternate form marks base eight and sixteen.  Reals take the precision
as the number of digits.  The zero flag pads numbers, never text, between sign
and digits.
-/

namespace Awk.Format

structure Directive where
  leftAlign : Bool := false
  plus : Bool := false
  blank : Bool := false
  alternate : Bool := false
  zero : Bool := false
  width : Option Nat := none
  precision : Option Nat := none
  deriving DecidableEq, Repr

inductive Base where
  | octal
  | decimal
  | hex
  deriving DecidableEq, Repr

inductive RealStyle where
  | exponential
  | fixed
  | general
  deriving DecidableEq, Repr

namespace Directive

def withFlag (d : Directive) : Char → Directive
  | '-' => { d with leftAlign := true }
  | '+' => { d with plus := true }
  | ' ' => { d with blank := true }
  | '#' => { d with alternate := true }
  | '0' => { d with zero := true }
  | _ => d

def ofFlags (flags : List Char) : Directive := flags.foldl withFlag {}

/-- Fill up to the width: spaces after, zeros between head and body, or spaces
before. -/
def pad (d : Directive) (zeros : Bool) (head body : List Char) : List Char :=
  let missing := d.width.getD 0 - (head.length + body.length)
  if d.leftAlign then head ++ body ++ List.replicate missing ' '
  else if zeros then head ++ List.replicate missing '0' ++ body
  else List.replicate missing ' ' ++ head ++ body

def signText (d : Directive) (negative : Bool) : List Char :=
  if negative then ['-'] else if d.plus then ['+'] else if d.blank then [' ']
    else []

def text (d : Directive) (cs : List Char) : List Char :=
  d.pad false [] (match d.precision with | some p => cs.take p | none => cs)

def integer (d : Directive) (base : Base) (upper : Bool) (n : Int) :
    List Char :=
  let radix := match base with | .octal => 8 | .decimal => 10 | .hex => 16
  let ds := Nat.toDigits radix n.natAbs
  let mark : List Char :=
    match base, d.alternate with
    | .octal, true => ['0', 'o']
    | .hex, true => ['0', 'x']
    | _, _ => []
  let body := List.replicate (d.precision.getD 0 - ds.length) '0' ++ ds
  let case (cs : List Char) : List Char :=
    if upper then cs.map Char.toUpper else cs
  d.pad d.zero (d.signText (n < 0) ++ case mark) (case body)

def magnitude (d : Directive) (style : RealStyle) (x : Number) : List Char :=
  match x with
  | .nan _ => ['n', 'a', 'n']
  | .real x =>
      match Binary.ofFloat? x with
      | none => ['i', 'n', 'f']
      | some b =>
          let (num, den) := b.ratio
          let precision := d.precision.getD 6
          match style with
          | .exponential => Decimal.exponential num den precision d.alternate
          | .fixed => Decimal.fixed num den precision d.alternate
          | .general => Decimal.general num den precision d.alternate

def isNegative : Number → Bool
  | .nan _ => false
  | .real x => (Binary.ofFloat? x).elim (x < 0.0) Binary.negative

def real (d : Directive) (style : RealStyle) (upper : Bool) (x : Number) :
    List Char :=
  let body := d.magnitude style x
  d.pad d.zero (d.signText (isNegative x)) (if upper then body.map Char.toUpper
    else body)

end Directive

end Awk.Format
