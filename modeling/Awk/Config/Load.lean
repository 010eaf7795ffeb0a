import Awk.Config.Options
import Awk.Config.Toml
import Awk.Config.Yaml
import Awk.Files.FileSystem
import Awk.Text.Case
import Awk.Text.Integer
import Awk.Text.Newline

/-!
Options from data, from files and from the environment.

Settings are applied in the order in which they come; the first one that cannot
be applied ends it. Limits have to be positive, and are integers in any
spelling.
-/

namespace Awk.Config

inductive FileFormat where
  | json
  | yaml
  | toml
  deriving DecidableEq, Repr

inductive NonNumber where
  | null
  | list
  | mapping
  deriving DecidableEq, Repr

inductive SettingError where
  | unknown (names : List String)
  | keyNotText
  | notInteger (text : String)
  | tooManyDigits (count : Option Nat)
  | notNumber (kind : NonNumber)
  | nan
  | infinite
  | notPositive (name : String) (value : Int)
  | notMapping (name : String)
  | badVariable (name text : String)
  | unreadable (path : String) (e : ReadError)
  | unsupported (extension : String)
  | malformed (format : FileFormat)
  | topLevel (path : String)
  deriving DecidableEq, Repr

/-! ## Wording -/

def errorNumber? : ReadError → Option Nat
  | .missing | .unread => some 2
  | .notDirectory => some 20
  | .directory => some 21
  | .notText _ => none

def SettingError.message : SettingError → String
  | .unknown names => "Unknown option(s): " ++ ", ".intercalate names
  | .keyNotText => "not a text"
  | .notInteger text =>
      "invalid literal for int() with base 10: " ++
        String.ofList ((Text.quoted text).toList.take 200)
  | .tooManyDigits count =>
      let found :=
        match count with
        | some n => ": value has " ++ toString n ++ " digits"
        | none => ""
      "Exceeds the limit (" ++ toString Text.digitLimit ++
        " digits) for integer string conversion" ++ found ++
        "; use sys.set_int_max_str_digits() to increase the limit"
  | .notNumber _ => "not a number"
  | .nan => "cannot convert float NaN to integer"
  | .infinite => "cannot convert float infinity to integer"
  | .notPositive name value =>
      name ++ " must be positive, got " ++ toString value
  | .notMapping name => name ++ " must be a mapping"
  | .badVariable name text =>
      name ++ " must be an integer, got " ++ Text.quoted text
  | .unreadable path e =>
      match errorNumber? e with
      | some n =>
          "[Errno " ++ toString n ++ "] " ++ e.reason ++ ": " ++
            Text.quoted path
      | none => e.reason
  | .unsupported extension =>
      "Unsupported config format: " ++ if extension = "" then "(none)"
        else extension
  | .malformed .json => "malformed JSON"
  | .malformed .yaml => "malformed YAML"
  | .malformed .toml => "malformed TOML"
  | .topLevel path => path ++ ": top level must be a mapping"

/-! ## Data -/

/-- A datum as an integer: reals are cut off, and texts may spell one. -/
def Datum.toInteger : Datum → Except SettingError Int
  | .integer n => .ok n
  | .flag b => .ok (if b then 1 else 0)
  | .real x =>
      match x.truncate? with
      | some n => .ok n
      | none => .error (if x.isNaN then .nan else .infinite)
  | .text s =>
      match Text.readInteger? s with
      | some n => .ok n
      | none =>
          match Text.excessDigits? s with
          | some count => .error (.tooManyDigits (some count))
          | none => .error (.notInteger s)
  | .null => .error (.notNumber .null)
  | .list _ => .error (.notNumber .list)
  | .mapping _ => .error (.notNumber .mapping)

def limitOf (name : String) (n : Int) : Except SettingError Int :=
  if n < 1 then .error (if Datum.isWritten n then .notPositive name n
    else .tooManyDigits none) else .ok n

def textsOf (name : String) : Datum → Except SettingError (Table String)
  | .mapping entries =>
      if Datum.entriesHaveText entries then
        .ok (Table.ofList (entries.map fun (key, value) => (key.toText,
          value.toText)))
      else .error (.tooManyDigits none)
  | _ => .error (.notMapping name)

def optionText : Datum → Except SettingError (Option String)
  | .null => .ok none
  | d => if d.hasText then .ok (some d.toText) else .error (.tooManyDigits none)

inductive Setting where
  | fieldSeparator
  | ofs
  | ors
  | rs
  | presets
  | maxIterations
  | maxCalls
  | cwd
  | environ
  deriving DecidableEq, Repr

def Setting.ofName? : String → Option Setting
  | "field_separator" => some .fieldSeparator
  | "ofs" => some .ofs
  | "ors" => some .ors
  | "rs" => some .rs
  | "variables" => some .presets
  | "max_iterations" => some .maxIterations
  | "max_recursion_depth" => some .maxCalls
  | "cwd" => some .cwd
  | "environ" => some .environ
  | _ => none

def Setting.apply (s : Setting) (d : Datum) (o : Options) :
    Except SettingError Options :=
  match s with
  | .fieldSeparator => do return { o with fieldSeparator := ← optionText d }
  | .ofs => do return { o with ofs := ← optionText d }
  | .ors => do return { o with ors := ← optionText d }
  | .rs => do return { o with rs := ← optionText d }
  | .cwd => do return { o with cwd := ← optionText d }
  | .presets => do
      let texts ← textsOf "variables" d
      return { o with presets := texts }
  | .environ => do
      let texts ← textsOf "environ" d
      return { o with environ := texts }
  | .maxIterations => do
      let n ← limitOf "max_iterations" (← d.toInteger)
      return { o with maxIterations := n }
  | .maxCalls => do
      let n ← limitOf "max_recursion_depth" (← d.toInteger)
      return { o with maxCalls := n }

def isKnown (key : Datum) : Bool :=
  match key with
  | .text name => (Setting.ofName? name).isSome
  | _ => false

def applyEntries : List (Datum × Datum) → Options → Except SettingError Options
  | [], o => .ok o
  | (key, value) :: rest, o =>
      match Setting.ofName? key.toText with
      | some s => do
          let o ← s.apply value o
          applyEntries rest o
      | none => applyEntries rest o

def Datum.name? : Datum → Option String
  | .text name => some name
  | _ => none

/-- Apply the entries of a mapping, all of which have to be known. -/
def ofEntries (entries : List (Datum × Datum)) (base : Options) :
    Except SettingError Options :=
  match (entries.map Prod.fst).filter fun key => !isKnown key with
  | [] => applyEntries entries base
  | unknown =>
      match unknown.mapM Datum.name? with
      | some names => .error (.unknown (names.mergeSort fun a b => !(b < a)))
      | none => .error .keyNotText

/-! ## Files -/

def formatOf (extension : String) : Option FileFormat :=
  match extension with
  | ".json" => some .json
  | ".yaml" | ".yml" => some .yaml
  | ".toml" => some .toml
  | _ => none

def FileFormat.parse (f : FileFormat) (text : String) : Option Datum :=
  match f with
  | .json => Json.parse text
  | .yaml => Yaml.parse text
  | .toml => Toml.parse text

def ofText (path text : String) (base : Options) :
    Except SettingError Options :=
  let extension := Text.lower (Path.extension path)
  match formatOf extension with
  | none => .error (.unsupported extension)
  | some format =>
      match format.parse (Text.withNewlines text) with
      | none => .error (.malformed format)
      | some .null => .ok base
      | some (.mapping entries) => ofEntries entries base
      | some _ => .error (.topLevel path)

def ofFile (disk : Disk) (path : String) (base : Options) :
    Except SettingError Options :=
  match disk.readText path with
  | .error e => .error (.unreadable path e)
  | .ok text => ofText path text base

/-! ## Environment -/

def variableLimit (environ : Table String) (name : String) :
    Except SettingError (Option Int) :=
  match environ.get? name with
  | none | some "" => .ok none
  | some text =>
      match Text.readInteger? text with
      | none => .error (.badVariable name text)
      | some n => (limitOf name n).map some

def ofEnvironment (environ : Table String) (base : Options) :
    Except SettingError Options := do
  let iterations ← variableLimit environ "AWK_MAX_ITERATIONS"
  let calls ← variableLimit environ "AWK_MAX_RECURSION_DEPTH"
  return { base with
    maxIterations := iterations.getD base.maxIterations
    maxCalls := calls.getD base.maxCalls }

end Awk.Config
