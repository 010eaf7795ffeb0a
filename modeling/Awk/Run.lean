import Awk.Evaluator.Stmt

/-!
Running a program: the `BEGIN` rules, the other rules for each record, the `END`
rules.

`exit` ends the rules that are running, but `END` rules still run, unless the
exit came from one of them.
-/

namespace Awk

/-- Make a program ready to run: its functions are known, no range is open,
nothing is written. -/
def load (p : Program) : Exec Unit := modify fun m =>
  { m with
    output := { m.output with text := "" }
    functions := p.functions.foldl (fun t f => t.insert f.name f) m.functions
    ranges := p.rules.map fun _ => false
    stage := .loaded }

def setStage (stage : Stage) : Exec Unit :=
  modify fun m => { m with stage := stage }

def isExiting : Exec Bool := do return (← get).flow.exiting

/-! ## Patterns -/

def Guard.holds (run : Runner) : Guard → Exec Bool
  | .regex pattern => do Exec.occurs pattern (← get).record.line
  | .expr e => isTrue run.services e

def rangeOpen (index : Nat) :
    Exec Bool := do return (← get).ranges.getD index false

def setRange (index : Nat) (isOpen : Bool) : Exec Unit :=
  modify fun m => { m with ranges := m.ranges.set index isOpen }

/-- Whether the record is in a range.  The record that opens it may also close
it. -/
def inRange (run : Runner) (index : Nat) (start stop : Guard) : Exec Bool := do
  if ← rangeOpen index then
    if ← stop.holds run then setRange index false
    return true
  else if ← start.holds run then
    let closes ← stop.holds run
    setRange index (!closes)
    return true
  else return false

def Trigger.holds (run : Runner) (index : Nat) : Trigger → Exec Bool
  | .begin | .finish => pure false
  | .always => pure true
  | .when guard => guard.holds run
  | .range start stop => inRange run index start stop

/-! ## The three parts of a run -/

def noteRule (index : Nat) : Exec Unit := do
  let nr := (← get).specials.nr
  match nr.truncate? with
  | none => throw (.recordNumber nr)
  | some n => Exec.note ["RULE", toString index, "matched record", toString n]

/-- `next` is over, and so is an exit that did not come from an `END` rule. -/
def Flow.atEnd (f : Flow) : Flow :=
  { f with next := false, nextFile := false,
           exiting := f.exiting && f.exitFromEnd }

structure NamedInput where
  name : String
  text : String
  deriving DecidableEq, Repr

namespace Runner

variable (run : Runner)

def beginRules : List Rule → Exec Unit
  | [] => pure ()
  | r :: rest =>
      match r.trigger with
      | .begin => do
          Stmt.execAll run r.action
          if ← isExiting then Exec.note ["EXIT", "in BEGIN"]
            else beginRules rest
      | _ => beginRules rest

def begin (p : Program) : Exec Unit := do
  setStage .begin
  run.beginRules p.rules

def recordRules : (index : Nat) → List Rule → Exec Unit
  | _, [] => pure ()
  | index, r :: rest => do
      let flow := (← get).flow
      if flow.exiting || flow.next || flow.nextFile then return
      if ← r.trigger.holds run index then
        noteRule index
        Stmt.execAll run r.action
      recordRules (index + 1) rest

def record (p : Program) (text : String) : Exec Unit := do
  if ← isExiting then return
  setStage .main
  Exec.setLine text
  Exec.countRecord
  modify fun m => { m with flow := { m.flow with next := false } }
  run.recordRules 0 p.rules

def endRules : List Rule → Exec Unit
  | [] => pure ()
  | r :: rest => do
      if ← isExiting then return
      match r.trigger with
      | .finish =>
          Stmt.execAll run r.action
          if ← isExiting then
            modify fun m => { m with
              flow := { m.flow with exitFromEnd := true } }
      | _ => pure ()
      endRules rest

def finish (p : Program) : Exec Unit := do
  setStage .finish
  modify fun m => { m with flow := m.flow.atEnd }
  run.endRules p.rules
  setStage .done

/-! ## Inputs -/

def takeRecord (p : Program) (text : String) : Exec Bool := do
  run.record p text
  if (← get).flow.nextFile then
    modify fun m => { m with flow := { m.flow with nextFile := false } }
    return false
  else return true

def recordTurn (p : Program) (records : Array String) : Exec Bool := do
  if ← isExiting then return false
  let next := (← get).input.next
  match records[next]? with
  | none => return false
  | some text =>
      Exec.setNextRecord (next + 1)
      run.takeRecord p text

def input (p : Program) (name : String) : Exec Unit := do
  modify fun m => { m with specials := { m.specials with filename := name } }
  let records := (← Exec.records).getD #[]
  run.recordLoop records.size (run.recordTurn p records)

def moreInputs (p : Program) : List NamedInput → Exec Unit
  | [] => pure ()
  | input :: rest => do
      if ← isExiting then return
      modify fun m => { m with specials := { m.specials with
        fnr := Number.zero } }
      Exec.attachInput (some input.text)
      run.input p input.name
      moreInputs p rest

def inputs (p : Program) : List NamedInput → Exec Unit
  | [] => pure ()
  | first :: rest => do
      if ← isExiting then return
      run.input p first.name
      run.moreInputs p rest

/-- A whole run.  The first input is there before `BEGIN`, so that `getline` can
read it. -/
def program (p : Program) (inputs : List NamedInput) : Exec Unit := do
  match inputs with
  | [] => pure ()
  | first :: _ => Exec.attachInput (some first.text)
  run.begin p
  run.inputs p inputs
  run.finish p

end Runner

def runBegin : Program → Exec Unit := Runner.standard.begin

def runRecord : Program → String → Exec Unit := Runner.standard.record

def runEnd : Program → Exec Unit := Runner.standard.finish

def runProgram : Program → List NamedInput → Exec Unit :=
  Runner.standard.program

end Awk
