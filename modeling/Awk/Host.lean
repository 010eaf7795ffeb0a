import Awk.Config.Options
import Awk.Report
import Awk.Run
import Awk.Source.Parse

/-!
Running scripts for a host.

`runScript` never fails for errors that the language has a wording for: they are
part of the report.
-/

namespace Awk

structure Host where
  files : Option FileSystem := none
  tracing : Bool := false
  platform : Platform := {}

def startMachine (options : Options) (host : Host) : Machine :=
  let m :=
    Machine.start ⟨options.maxIterations,
      options.maxCalls⟩ host.files options.cwd options.environ.entries
  { m with platform := host.platform, trace := { enabled := host.tracing } }

def Options.specials (options : Options) (s : Specials) : Specials :=
  { s with
    fs := options.fieldSeparator.getD s.fs
    ofs := options.ofs.getD s.ofs
    ors := options.ors.getD s.ors
    rs := options.rs.getD s.rs }

def assignAll : List (String × String) → Exec Unit
  | [] => pure ()
  | (name, text) :: rest => do
      Exec.assignVariable name (.text text)
      assignAll rest

/-- Set the separators, then the variables in order. -/
def useOptions (options : Options) : Exec Unit := do
  modify fun m => { m with specials := options.specials m.specials }
  assignAll options.presets.entries

/-- The stack has to be as large as the limit of the calls asks for. -/
def reserveFrames : Exec Unit := do
  let frames := framesFor (← get).limits.calls
  if maxFrames < frames then throw (.frames frames)

def Runner.loaded (run : Runner) (p : Program) (inputs : List NamedInput)
    (options : Options) :
    Exec Unit := do
  useOptions options
  load p
  reserveFrames
  run.program p inputs

def runLoaded : Program → List NamedInput → Options → Exec Unit :=
  Runner.standard.loaded

/-- How a run ended: with a report, or with a fault that has no wording; and the
trace it left. -/
structure Ending where
  result : Except Fault Report
  trace : List String := []

def limitNote : Fault → List String
  | .iterations kind e =>
      ["[DBG] LIMIT iterations " ++ iterationsMessage kind e]
  | .calls e => ["[DBG] LIMIT recursion " ++ callsMessage e]
  | _ => []

def Ending.ofResult : EStateM.Result Fault Machine Unit → Ending
  | .ok _ m => ⟨.ok (Report.ofMachine m m.output.exitCode), m.trace.lines⟩
  | .error e m =>
      let trace := m.trace.lines ++ if m.trace.enabled then limitNote e else []
      match Report.ofFault? m e with
      | some report => ⟨.ok report, trace⟩
      | none => ⟨.error e, trace⟩

def runScript (script : String) (inputs : List NamedInput) (options : Options)
    (host : Host) : Ending :=
  match Program.parse script host.platform.nesting with
  | .error e => { result := .ok (Report.ofSyntaxError script e) }
  | .ok p => .ofResult (runLoaded p inputs options (startMachine options host))

def runOn (script : String) (input : Option String) (options : Options)
    (host : Host) : Ending :=
  runScript script (input.toList.map fun text => ⟨"", text⟩) options host

def runChunks (script : String) (chunks : List String) (options : Options)
    (host : Host) :
    Except Fault (List String) :=
  (runOn script (some (String.join chunks)) options host).result.map fun r =>
    Text.lines r.output

end Awk
