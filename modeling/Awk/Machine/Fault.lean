import Awk.Arithmetic
import Awk.Format.Printf
import Awk.Regex.Basic
import Awk.Substring

/-!
Why a run stops before its end.

Fatal errors and exceeded limits are part of the language and have a wording.
The other faults are requests that have no answer in it: patterns and windows
without a meaning, sizes in a format that are not read, templates and stacks
that ask for too much, a record number that is not finite.
-/

namespace Awk

inductive Fatal where
  | arrayAsScalar (name : String)
  | scalarAsArray (name : String)
  | division (e : DivisionError)
  | fieldNotFinite (index : Number)
  | fieldNegative (index : Int)
  | fieldTooLarge (index : Int)
  | emptyRedirect
  | substrArguments
  | indexArguments
  | splitTarget
  | substituteArguments
  | matchArguments
  | matchTarget
  | atan2Arguments
  deriving DecidableEq, Repr

inductive LoopKind where
  | whileLoop
  | doLoop
  | forLoop
  | forIn
  deriving DecidableEq, Repr

structure Exceeded where
  limit : Int
  written : String
  deriving DecidableEq, Repr

inductive Fault where
  | fatal (cause : Fatal)
  | iterations (kind : LoopKind) (e : Exceeded)
  | calls (e : Exceeded)
  | noRoom
  | pattern (e : Regex.PatternError)
  | window (e : WindowError)
  | size (e : Format.SizeError)
  | template (e : Format.TemplateError)
  | frames (count : Int)
  | recordNumber (n : Number)
  | unread (path : String)
  deriving DecidableEq, Repr

/-! ## Wording -/

def infiniteText (x : Number) : String :=
  if x.isNaN then "nan" else if x.lt Number.zero then "-inf" else "inf"

def Fatal.detail : Fatal → String
  | .arrayAsScalar name =>
      "attempt to use array `" ++ name ++ "' in a scalar context"
  | .scalarAsArray name => "attempt to use scalar `" ++ name ++ "' as an array"
  | .division e => e.message
  | .fieldNotFinite index => "attempt to access field " ++ infiniteText index
  | .fieldNegative index => "attempt to access field " ++ toString index
  | .fieldTooLarge index => "field index " ++ toString index ++ " too large"
  | .emptyRedirect => "expression for `>' redirection has null string value"
  | .substrArguments => "substr: requires at least two arguments"
  | .indexArguments => "index: requires two arguments"
  | .splitTarget => "split: second argument is not an array"
  | .substituteArguments => "sub/gsub: requires at least two arguments"
  | .matchArguments => "match: requires at least two arguments"
  | .matchTarget => "match: third argument is not an array"
  | .atan2Arguments => "atan2: requires two arguments"

def Fatal.message (cause : Fatal) : String := "awk: fatal: " ++ cause.detail

def LoopKind.text : LoopKind → String
  | .whileLoop => "while"
  | .doLoop => "do-while"
  | .forLoop => "for"
  | .forIn => "for-in"

def iterationsMessage (kind : LoopKind) (e : Exceeded) : String :=
  "awk: " ++ kind.text ++ " loop exceeded maximum iterations (" ++
    toString e.limit ++ ")"

def callsMessage (e : Exceeded) : String :=
  "awk: recursion depth exceeded maximum (" ++ toString e.limit ++ ")"

def noRoomMessage : String :=
  "awk: recursion depth exceeded (interpreter stack exhausted)"

end Awk
