import Awk.CommandLine.Arguments
import Awk.Config.Load
import Awk.Host

/-!
What the command line does: read the program, the options and the inputs, run,
and show the result.

Everything the outside world holds is given, so that a command line is a
function of it.  What is not known yet, a file or the standard input, ends the
run with a request for it.
-/

namespace Awk.CommandLine

structure World where
  disk : Disk
  directory : String
  homes : Table String := {}
  environ : Table String := {}
  stdin : Option String := none
  platform : Platform := {}

structure Shown where
  exitCode : Int := 0
  stdout : String := ""
  stderr : String := ""
  deriving DecidableEq, Repr

inductive Stop where
  | refused (r : Refusal)
  | notText (path : String)
  | setting (e : Config.SettingError)
  | fault (e : Fault)
  | needsFile (path : String)
  | needsStdin
  deriving DecidableEq, Repr

inductive Early where
  | shown (s : Shown)
  | stop (s : Stop)
  deriving DecidableEq, Repr

abbrev Step := Except Early

def complain {α : Type} (message : String) : Step α :=
  .error (.shown { exitCode := 2, stderr := "awk: " ++ message ++ "\n" })

/-! ## Program and options -/

def readFile (w : World) (describe : String → ReadError → String)
    (name : String) : Step String :=
  let path := Path.shown name
  match w.disk.readText path with
  | .ok text => .ok (Text.withNewlines text)
  | .error (.notText _) => .error (.stop (.notText path))
  | .error .unread => .error (.stop (.needsFile path))
  | .error e => complain (describe path e)

def programFileComplaint (path : String) (e : ReadError) : String :=
  "can't open source file `" ++ path ++ "' (" ++ e.reason ++ ")"

def inputComplaint (path : String) (e : ReadError) : String :=
  "cannot open \"" ++ path ++ "\" (" ++ e.reason ++ ")"

/-- The program, and the operands that are left: files of programs, or else the
first operand. -/
def programOf (w : World) (a : Arguments) : Step (String × List String) :=
  match a.programFiles, a.operands with
  | [], [] => .error (.stop (.refused .usage))
  | [], script :: operands => .ok (script, operands)
  | files, operands => do
      let texts ← files.mapM (readFile w programFileComplaint)
      return ("\n".intercalate texts, operands)

/-- Settings that cannot be used are complained about, except where they make no
sense at all. -/
def settingStep {α : Type} : Except Config.SettingError α → Step α
  | .ok a => .ok a
  | .error e =>
      match e with
      | .unreadable path .unread => .error (.stop (.needsFile path))
      | .keyNotText | .notNumber _ | .infinite | .malformed .yaml =>
          .error (.stop (.setting e))
      | e => complain e.message

def baseOptions (w : World) (a : Arguments) : Step Options := do
  let options ←
    match a.config with
    | none | some "" => pure {}
    | some path => settingStep (Config.ofFile w.disk path {})
  settingStep (Config.ofEnvironment w.environ options)

def separatorOf (text : String) : String := if text = "t" then "\t" else text

def addVariables : List String → Table String → Step (Table String)
  | [], presets => .ok presets
  | text :: rest, presets =>
      match splitAtEquals text.toList with
      | some (c :: name, value) =>
          addVariables rest (presets.insert (String.ofList (c :: name))
            (String.ofList value))
      | _ => complain ("invalid -v argument `" ++ text ++ "'")

def checkLimit (flag : String) : Option Int → Step Unit
  | none => .ok ()
  | some n =>
      if n < 1 then complain (flag ++ " must be a positive integer, got " ++
        toString n) else .ok ()

/-- The options of a run: those of files and the environment, overridden by the
arguments. -/
def optionsOf (w : World) (a : Arguments) : Step Options := do
  let options ← baseOptions w a
  let presets ← addVariables a.assignments options.presets
  checkLimit "--max-iterations" a.maxIterations
  checkLimit "--max-recursion-depth" a.maxCalls
  return { options with
    fieldSeparator := (a.fieldSeparator.map separatorOf) <|>
      options.fieldSeparator
    presets := presets
    maxIterations := a.maxIterations.getD options.maxIterations
    maxCalls := a.maxCalls.getD options.maxCalls
    cwd := some w.directory }

/-! ## Inputs -/

def standardInput (w : World) : Step String :=
  match w.stdin with
  | some text => .ok (Text.withNewlines text)
  | none => .error (.stop .needsStdin)

/-- The inputs with the given names.  A dash is the standard input, which can be
read only once. -/
def namedInputs (w : World) : (stdinRead : Bool) → List String →
    Step (List NamedInput)
  | _, [] => .ok []
  | stdinRead, name :: rest => do
      let isStdin := name == "-"
      let text ←
        if isStdin then if stdinRead then .ok "" else standardInput w
        else readFile w inputComplaint name
      let inputs ← namedInputs w (stdinRead || isStdin) rest
      return ⟨name, text⟩ :: inputs

def inputsOf (w : World) : List String → Step (List NamedInput)
  | [] => do return [⟨"", ← standardInput w⟩]
  | names => namedInputs w false names

/-! ## Running -/

def isTracing (w : World) : Bool := (w.environ.get? "AWK_DEBUG").any (· != "")

def localFiles (w : World) : FileSystem :=
  .onDisk (.behind (some w.directory) w.directory w.homes w.disk)

def lineText (lines : List String) : String :=
  String.join (lines.map (· ++ "\n"))

def shownOf (trace : List String) (r : Report) : Shown :=
  { exitCode := r.exitCode
    stdout := r.output
    stderr := lineText trace ++ if r.succeeded then ""
      else r.errorText ++ "\n" }

def finish (ending : Ending) : Step Shown :=
  match ending.result with
  | .ok report => .ok (shownOf ending.trace report)
  | .error (.unread path) => .error (.stop (.needsFile path))
  | .error e => .error (.stop (.fault e))

def steps (w : World) (texts : List String) : Step Shown := do
  let a ←
    match Arguments.ofWords texts with
    | .ok a => .ok a
    | .error r => .error (.stop (.refused r))
  let (script, operands) ← programOf w a
  let options ← optionsOf w a
  let inputs ← inputsOf w operands
  let host : Host :=
    { files := some (localFiles w)
      tracing := isTracing w
      platform := w.platform }
  finish (runScript script inputs options host)

def run (w : World) (texts : List String) : Except Stop Shown :=
  match steps w texts with
  | .ok shown => .ok shown
  | .error (.shown shown) => .ok shown
  | .error (.stop stop) => .error stop

end Awk.CommandLine
