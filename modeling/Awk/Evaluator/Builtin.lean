import Awk.Evaluator.Argument
import Awk.Format.Printf
import Awk.Machine.Input
import Awk.Machine.Output
import Awk.Number.Functions
import Awk.Text.Case

/-!
The built-in functions.

They evaluate their arguments from left to right, and only those they need.
-/

namespace Awk

inductive Builtin where
  | length
  | substr
  | index
  | split
  | sub
  | gsub
  | match
  | sprintf
  | tolower
  | toupper
  | int
  | sqrt
  | exp
  | log
  | sin
  | cos
  | atan2
  | rand
  | srand
  | close
  | fflush
  deriving DecidableEq, Repr

namespace Builtin

def ofName? : String → Option Builtin
  | "length" => some .length
  | "substr" => some .substr
  | "index" => some .index
  | "split" => some .split
  | "sub" => some .sub
  | "gsub" => some .gsub
  | "match" => some .match
  | "sprintf" => some .sprintf
  | "tolower" => some .tolower
  | "toupper" => some .toupper
  | "int" => some .int
  | "sqrt" => some .sqrt
  | "exp" => some .exp
  | "log" => some .log
  | "sin" => some .sin
  | "cos" => some .cos
  | "atan2" => some .atan2
  | "rand" => some .rand
  | "srand" => some .srand
  | "close" => some .close
  | "fflush" => some .fflush
  | _ => none

def count (n : Nat) : Value := .number (Number.ofNat n)

/-! ## Texts -/

def runLength : List Argument → Exec Value
  | [] => do return count (← get).record.line.length
  | a :: _ => do
      match ← a.array? with
      | some id => return count (← Exec.arrayAt id).size
      | none => return count (← a.text).length

def runSubstr : List Argument → Exec Value
  | s :: start :: rest => do
      let text ← s.text
      let first ← start.number
      let length ← rest.head?.mapM Argument.number
      match substring text first length with
      | .ok part => return .text part
      | .error e => throw (.window e)
  | _ => Exec.fatal .substrArguments

def runIndex : List Argument → Exec Value
  | s :: t :: _ => do
      let text ← s.text
      let part ← t.text
      match Text.find? part.toList 0 text.toList with
      | some i => return count (i + 1)
      | none => return count 0
  | _ => Exec.fatal .indexArguments

def splitAtLiteral (text pattern : String) : Exec (List String) := do
  match ← Exec.regex? pattern with
  | some p => return p.split text
  | none => return if text = "" then [] else [text]

/-- The pieces that `split` finds: the third argument, or else `FS`, says where
to cut. -/
def pieces (text : String) : Option Argument → Exec (List String)
  | none => do Exec.splitWith text (← get).specials.fs
  | some separator =>
      match separator.pattern with
      | some pattern => splitAtLiteral text pattern
      | none => do Exec.splitWith text (← separator.text)

def runSplit : List Argument → Exec Value
  | s :: a :: rest =>
      match a.name with
      | none => Exec.fatal .splitTarget
      | some array => do
          let text ← s.text
          let parts ← pieces text rest.head?
          let id ← Exec.useArray array
          Exec.fillArray id parts
          return count parts.length
  | _ => Exec.fatal .splitTarget

/-- The text to change, and where to store it afterwards; the record if no
target is given. -/
def substitutionTarget (target : Option Argument) :
    Exec (String × Option Location) := do
  match target with
  | none =>
      let place : Location := .field Number.zero
      return (← Exec.textOf (← Exec.readAt place), some place)
  | some a =>
      match a.location with
      | some locate =>
          let place ← locate
          return (← Exec.textOf (← Exec.readAt place), some place)
      | none => return (← a.text, none)

def runSubstitute (everywhere : Bool) : List Argument → Exec Value
  | p :: r :: rest => do
      let pattern ← p.patternText
      let replacement ← r.text
      let (text, place) ← substitutionTarget rest.head?
      match ← Exec.regex? pattern with
      | none => return count 0
      | some regex =>
          let (changed, n) := regex.substitute replacement text everywhere
          if n ≠ 0 then
            match place with
            | some place => Exec.writeAt place (.text changed)
            | none => pure ()
          return count n
  | _ => Exec.fatal .substituteArguments

def matchedGroups (text : Array Char) (m : Regex.Match) :
    List (String × Value) :=
  ((some m.whole :: m.groups).zipIdx).filterMap fun (span, i) =>
    span.map fun s => (toString i,
      .text (String.ofList (Regex.slice text s.start s.stop)))

def storeGroups (text : Array Char) (found : Option Regex.Match) :
    Option Argument → Exec Unit
  | none => pure ()
  | some target =>
      match target.name with
      | none => Exec.fatal .matchTarget
      | some array => do
          let id ← Exec.useArray array
          Exec.updateArray id fun _ =>
            Table.ofList ((found.map (matchedGroups text)).getD [])

def setMatch (start length : Number) : Exec Unit :=
  modify fun m => { m with specials := { m.specials with
    rstart := start, rlength := length } }

def runMatch : List Argument → Exec Value
  | s :: p :: rest => do
      let text := (← s.text).toList.toArray
      let pattern ← p.patternText
      let regex ← Exec.regex? pattern
      let found := regex.bind fun r => r.search? text 0
      storeGroups text found rest.head?
      match found with
      | none => setMatch Number.zero (-Number.one)
      | some m =>
          setMatch (Number.ofNat (m.whole.start + 1))
            (Number.ofNat (m.whole.stop - m.whole.start))
      return .number (← get).specials.rstart
  | _ => Exec.fatal .matchArguments

def runSprintf : List Argument → Exec Value
  | [] => pure (.text "")
  | f :: args => do
      let format ← f.value
      let values ← args.mapM Argument.value
      return .text (← Exec.formatted format values)

def mapText (f : String → String) : List Argument → Exec Value
  | [] => pure (.text "")
  | a :: _ => do return .text (f (← a.text))

/-! ## Numbers -/

def mapNumber (f : Number → Number) (default : Number) :
    List Argument → Exec Value
  | [] => pure (.number default)
  | a :: _ => do return .number (f (← a.number))

def runAtan2 : List Argument → Exec Value
  | y :: x :: _ => do
      let y ← y.number
      let x ← x.number
      return .number (Number.atan2 y x)
  | _ => Exec.fatal .atan2Arguments

def runRand : Exec Value := do
  let (x, random) := (← get).random.next
  modify fun m => { m with random := random }
  return .number x

def runSrand (args : List Argument) : Exec Value := do
  let before := (← get).random.seed
  let seed ←
    match args with
    | [] => pure (Number.ofNat (← get).platform.clock)
    | a :: _ => a.number
  modify fun m =>
    { m with random := m.random.reseed m.platform.nanSeed seed }
  return .number before

/-! ## Files -/

def runClose : List Argument → Exec Value
  | [] => pure (.number (-Number.one))
  | a :: _ => do
      let name ← a.text
      let redirect ← Exec.closeTarget name
      let file ← Exec.closeFile name
      return .number (if redirect || file then Number.zero else -Number.one)

def runFflush (args : List Argument) : Exec Value := do
  for a in args do
    let _ ← a.value
  return .number Number.zero

def run (b : Builtin) (args : List Argument) : Exec Value :=
  match b with
  | .length => runLength args
  | .substr => runSubstr args
  | .index => runIndex args
  | .split => runSplit args
  | .sub => runSubstitute false args
  | .gsub => runSubstitute true args
  | .match => runMatch args
  | .sprintf => runSprintf args
  | .tolower => mapText Text.lower args
  | .toupper => mapText Text.upper args
  | .int => mapNumber (fun x => Number.ofInt x.toInteger) Number.zero args
  | .sqrt => mapNumber Number.sqrt Number.zero args
  | .exp => mapNumber Number.exp Number.one args
  | .log => mapNumber Number.log Number.negativeInfinity args
  | .sin => mapNumber Number.sin Number.zero args
  | .cos => mapNumber Number.cos Number.one args
  | .atan2 => runAtan2 args
  | .rand => runRand
  | .srand => runSrand args
  | .close => runClose args
  | .fflush => runFflush args

end Builtin

end Awk
