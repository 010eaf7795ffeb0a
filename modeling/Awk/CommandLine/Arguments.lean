import Awk.Text.Digit
import Awk.Text.Integer
import Awk.Text.Split

/-!
The arguments of the command line.

An option has its value behind it, or in the same word: behind the letter of a
short option, or behind an equals sign.  Long options may be cut short as long
as they stay unique.  A double dash ends the options.  All operands have to
stand together.
-/

namespace Awk.CommandLine

inductive Flag where
  | help
  | fieldSeparator
  | assignment
  | programFile
  | config
  | maxIterations
  | maxCalls
  deriving DecidableEq, Repr

def spellings : List (String × Flag) :=
  [("-h", .help), ("--help", .help), ("-F", .fieldSeparator),
    ("-v", .assignment), ("-f", .programFile), ("--config", .config),
    ("--max-iterations", .maxIterations), ("--max-recursion-depth", .maxCalls)]

structure Arguments where
  fieldSeparator : Option String := none
  assignments : List String := []
  programFiles : List String := []
  config : Option String := none
  maxIterations : Option Int := none
  maxCalls : Option Int := none
  operands : List String := []
  deriving DecidableEq, Repr

inductive Refusal where
  | usage
  | help
  deriving DecidableEq, Repr

/-! ## Words -/

inductive Word where
  | operand (text : String)
  | separator
  | option (flag : Flag) (value : Option String)
  | unknown
  deriving DecidableEq, Repr

def Word.isOption : Word → Bool
  | .option _ _ | .unknown => true
  | _ => false

def startsWith (cs front : List Char) : Bool :=
  (Text.dropFront? front cs).isSome

def splitAtEquals (cs : List Char) : Option (List Char × List Char) :=
  match cs.span (· != '=') with
  | (_, []) => none
  | (before, _ :: behind) => some (before, behind)

def dropFinalNewline (cs : List Char) : List Char :=
  if cs.getLast? = some '\n' then cs.dropLast else cs

/-- A minus sign and a decimal number, perhaps with a newline behind it: an
operand, not an option. -/
def isNegativeNumber (cs : List Char) : Bool :=
  match dropFinalNewline cs with
  | '-' :: rest =>
      match rest.span Text.isDigit with
      | (whole, []) => !whole.isEmpty
      | (_, '.' :: fraction) => !fraction.isEmpty && fraction.all Text.isDigit
      | _ => false
  | _ => false

/-- The options a word may stand for that is not spelled out, with the values it
gives them. -/
def candidates (cs : List Char) : List (Flag × Option String) :=
  match cs with
  | '-' :: '-' :: _ =>
      let (front, value) :=
        match splitAtEquals cs with
        | some (front, value) => (front, some (String.ofList value))
        | none => (cs, none)
      (spellings.filter fun (s, _) => startsWith s.toList front).map
        fun (_, flag) => (flag, value)
  | '-' :: letter :: value =>
      (spellings.filter fun (s, _) => s.toList == ['-', letter]).map
        fun (_, flag) =>
        (flag, some (String.ofList value))
  | _ => []

def spelled? (cs : List Char) : Option Flag :=
  spellings.lookup (String.ofList cs)

def assigned? (cs : List Char) : Option (Flag × String) := do
  let (front, value) ← splitAtEquals cs
  let flag ← spelled? front
  return (flag, String.ofList value)

/-- What a word is, before any double dash; none if it may stand for several
options. -/
def Word.ofText? (text : String) : Option Word :=
  let cs := text.toList
  if cs.head? ≠ some '-' then some (.operand text)
  else
    match spelled? cs with
    | some flag => some (.option flag none)
    | none =>
        if cs.length = 1 then some (.operand text)
        else
          match assigned? cs with
          | some (flag, value) => some (.option flag (some value))
          | none =>
              match candidates cs with
              | [(flag, value)] => some (.option flag value)
              | [] =>
                  if isNegativeNumber cs ||
                    cs.contains ' ' then some (.operand text)
                  else some .unknown
              | _ => none

def words : List String → Option (List Word)
  | [] => some []
  | text :: rest =>
      if text = "--" then some (.separator :: rest.map .operand)
      else do
        let word ← Word.ofText? text
        let more ← words rest
        return word :: more

/-! ## Options -/

def Arguments.set (a : Arguments) (flag : Flag) (value : String) :
    Except Refusal Arguments :=
  match flag with
  | .help => .error .help
  | .fieldSeparator => .ok { a with fieldSeparator := some value }
  | .assignment => .ok { a with assignments := a.assignments ++ [value] }
  | .programFile => .ok { a with programFiles := a.programFiles ++ [value] }
  | .config => .ok { a with config := some value }
  | .maxIterations =>
      match Text.readInteger? value with
      | some n => .ok { a with maxIterations := some n }
      | none => .error .usage
  | .maxCalls =>
      match Text.readInteger? value with
      | some n => .ok { a with maxCalls := some n }
      | none => .error .usage

def helpRefusal : Option String → Refusal
  | none => .help
  | some value =>
      match value.toList with
      | letter :: _ => if (spelled? ['-', letter]).isSome then .help else .usage
      | [] => .usage

def operandText : Word → Option String
  | .operand text => some text
  | _ => none

/-- Read the words from left to right.  `placed` tells that the operands have
been found, `surplus` that there were words that belong nowhere. -/
def readWords : (placed surplus : Bool) → Arguments → List Word →
    Except Refusal Arguments
  | _, surplus, a, [] => if surplus then .error .usage else .ok a
  | placed, _, a, .unknown :: rest => readWords placed true a rest
  | _, _, _, .option .help value :: _ => .error (helpRefusal value)
  | placed, surplus, a, .option flag (some value) :: rest => do
      let a ← a.set flag value
      readWords placed surplus a rest
  | placed, surplus, a, .option flag none :: .operand value :: rest => do
      let a ← a.set flag value
      readWords placed surplus a rest
  | _, _, _, .option _ none :: _ => .error .usage
  | placed, surplus, a, .separator :: rest =>
      if placed then .error .usage
      else readWords placed surplus { a with
        operands := a.operands ++ rest.filterMap operandText } []
  | placed, surplus, a, .operand text :: rest =>
      if placed then readWords placed true a rest
      else
        let a := { a with operands := a.operands ++ [text] }
        readWords (rest.head?.any Word.isOption) surplus a rest

def Arguments.ofWords (texts : List String) : Except Refusal Arguments :=
  match words texts with
  | none => .error .usage
  | some ws => readWords false false {} ws

end Awk.CommandLine
