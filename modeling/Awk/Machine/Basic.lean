import Awk.Files.FileSystem
import Awk.Machine.Fault
import Awk.Platform
import Awk.Random
import Awk.Regex.Cache
import Awk.Table

/-!
The state of a run.

A name stands for a scalar or for an array, and arrays are kept in a store of
their own, so that a parameter can stand for an array of the caller.  `Exec` is
a computation on the state; what it changed before a fault stays changed.
-/

namespace Awk

structure Record where
  line : String := ""
  fields : List String := []
  deriving DecidableEq, Repr

/-- The special variables except `NF`, which is the number of fields. -/
structure Specials where
  nr : Number := Number.zero
  fnr : Number := Number.zero
  rstart : Number := Number.zero
  rlength : Number := -Number.one
  fs : String := " "
  ofs : String := " "
  ors : String := "\n"
  rs : String := "\n"
  subsep : String := "\x1c"
  convfmt : String := Format.defaultTemplate
  ofmt : String := Format.defaultTemplate
  filename : String := ""
  deriving DecidableEq, Repr

abbrev ArrayId := Nat

/-- What names stand for. -/
structure Names where
  scalars : Table Value := {}
  arrays : Table ArrayId := {}
  store : Array (Table Value) := #[]
  deriving Repr

/-- What statements have asked for. -/
structure Flow where
  exiting : Bool := false
  next : Bool := false
  nextFile : Bool := false
  exitFromEnd : Bool := false
  breaking : Bool := false
  continuing : Bool := false
  returning : Bool := false
  returned : Option Value := none
  deriving DecidableEq, Repr

def Flow.interrupted (f : Flow) : Bool :=
  f.exiting || f.next || f.nextFile || f.returning || f.breaking || f.continuing

structure Limits where
  iterations : Int := 100000
  calls : Int := 100
  deriving DecidableEq, Repr

structure Output where
  text : String := ""
  redirects : Table String := {}
  opened : List String := []
  exitCode : Int := 0
  deriving Repr

/-- The main input: its text, and its records once they are needed. -/
structure Input where
  text : Option String := none
  records : Option (Array String) := none
  next : Nat := 0
  deriving DecidableEq, Repr

/-- A file read by `getline`: its lines and the next one to read; no lines if it
could not be read. -/
structure FileCursor where
  lines : Option (Array String)
  next : Nat := 0
  deriving DecidableEq, Repr

structure Files where
  system : Option FileSystem := none
  cwd : Option String := none
  cursors : Table FileCursor := {}

structure Trace where
  enabled : Bool := false
  lines : List String := []
  deriving DecidableEq, Repr

inductive Stage where
  | loaded
  | begin
  | main
  | finish
  | done
  deriving DecidableEq, Repr

structure Machine where
  stage : Stage := .loaded
  ranges : List Bool := []
  record : Record := {}
  specials : Specials := {}
  names : Names := {}
  functions : Table Function := {}
  flow : Flow := {}
  limits : Limits := {}
  depth : Nat := 0
  output : Output := {}
  regexes : Regex.Cache := {}
  input : Input := {}
  files : Files := {}
  random : Random := Random.initial
  platform : Platform := {}
  trace : Trace := {}

instance : Inhabited Machine := ⟨{}⟩

def Machine.start (limits : Limits) (system : Option FileSystem)
    (cwd : Option String) (environ : List (String × String)) : Machine :=
  let values :=
    Table.ofList (environ.map fun (name, text) => (name, Value.text text))
  { limits := limits
    files := { system := system, cwd := cwd }
    names := { arrays := Table.ofList [("ENVIRON", 0)], store := #[values] } }

/-! ## Computations -/

abbrev Exec := EStateM Fault Machine

namespace Exec

def fatal {α : Type} (cause : Fatal) : Exec α := throw (.fatal cause)

def exceed {α : Type} (fault : Exceeded → Fault) (limit : Int) : Exec α := do
  throw (fault ⟨limit, (← get).output.text⟩)

/-- Do something to the state afterwards, also after a fault. -/
def andAlways {α : Type} (x : Exec α) (cleanup : Machine → Machine) :
    Exec α := fun m =>
  match x m with
  | .ok a m' => .ok a (cleanup m')
  | .error e m' => .error e (cleanup m')

def note (parts : List String) : Exec Unit := modify fun m =>
  if m.trace.enabled then
    { m with trace := { m.trace with
      lines := m.trace.lines ++ [" ".intercalate ("[DBG]" :: parts)] } }
  else m

def convfmt : Exec String := do return (← get).specials.convfmt

def ofTemplate {α : Type} : Except Format.TemplateError α → Exec α
  | .ok a => pure a
  | .error e => throw (.template e)

def textThrough (template : String) (v : Value) : Exec String := do
  ofTemplate (v.toText template (← get).platform.memory)

def textOf (v : Value) : Exec String := do textThrough (← convfmt) v

def compare (op : Comparison) (a b : Value) : Exec Bool := do
  ofTemplate (op.holds a b (← convfmt) (← get).platform.memory)

def formatted (format : Value) (values : List Value) : Exec String := do
  let text ← textOf format
  let memory := (← get).platform.memory
  match Format.printf text values (← convfmt) memory with
  | .ok text => return text
  | .error (.size e) => throw (.size e)
  | .error (.template e) => throw (.template e)

/-! ## Patterns -/

/-- A pattern, compiled on first use. -/
def regex (pattern : String) :
    Exec (Except Regex.PatternError Regex.Pattern) := do
  match (← get).regexes.lookup { text := pattern } with
  | .ok (p, cache) =>
      modify fun m => { m with regexes := cache }
      return .ok p
  | .error e => return .error e

def regex? (pattern : String) : Exec (Option Regex.Pattern) := do
  match ← regex pattern with
  | .ok p => return some p
  | .error .malformed => return none
  | .error e => throw (.pattern e)

def occurs (pattern text : String) : Exec Bool := do
  match Regex.occurs (← regex pattern) text with
  | .ok b => return b
  | .error e => throw (.pattern e)

end Exec

end Awk
