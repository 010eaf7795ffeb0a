import Awk.Evaluator.Expr

/-!
What statements do.

A block stops as soon as a statement has asked for something else.  Every loop
counts its own turns and fails when it takes more than the limit allows.  What a
statement does is said for any `Runner`, that is for any way of repeating turns;
programs are run by `Runner.standard`.
-/

namespace Awk

/-- Evaluate a whole expression, if there is room for it. -/
def evalWhole (run : Services) (e : Expr) : Exec Value := do
  let m ← get
  if m.platform.room.fits m.limits.calls m.depth e then e.eval run
  else throw .noRoom

def isTrue (run : Services) (e : Expr) :
    Exec Bool := do return (← evalWhole run e).truth

/-! ## Output -/

def writeText (run : Services) (text : String) : Option Redirect → Exec Unit
  | none => Exec.emit text
  | some r => do
      let target ← Exec.textOf (← evalWhole run r.target)
      if target = "" then Exec.fatal .emptyRedirect
      Exec.emitTo target text r.append

def printedText (run : Services) (e : Expr) : Exec String := do
  let v ← evalWhole run e
  Exec.textThrough (← get).specials.ofmt v

def runPrint (run : Services) (args : List Expr) (redirect : Option Redirect) :
    Exec Unit := do
  let parts ←
    match args with
    | [] => pure [(← get).record.line]
    | args => args.mapM (printedText run)
  let specials := (← get).specials
  writeText run (specials.ofs.intercalate parts ++ specials.ors) redirect

def runPrintf (run : Services) (format : Expr) (args : List Expr)
    (redirect : Option Redirect) :
    Exec Unit := do
  let format ← evalWhole run format
  let values ← args.mapM (evalWhole run)
  let text ← Exec.formatted format values
  writeText run text redirect

/-! ## Loops -/

def endTurn : Exec Bool := do
  let flow := (← get).flow
  if flow.breaking then
    modify fun m => { m with flow := { m.flow with breaking := false } }
    return false
  modify fun m => { m with flow := { m.flow with continuing := false } }
  return !(flow.exiting || flow.next || flow.nextFile || flow.returning)

def whileTurns (tooMany : Exec Unit) (test turn : Exec Bool) :
    (left : Nat) → Exec Unit
  | 0 => do
      if ← test then tooMany
  | left + 1 => do
      if ← test then
        if ← turn then whileTurns tooMany test turn left

def doTurns (tooMany : Exec Unit) (test turn : Exec Bool) :
    (left : Nat) → Exec Unit
  | 0 => tooMany
  | left + 1 => do
      if ← turn then
        if ← test then doTurns tooMany test turn left

/-- Turns over the keys of an array, at most `left` of them.  Keys that are gone
are passed over. -/
def keyTurns (tooMany : Exec Unit) (id : ArrayId) (name : String)
    (turn : Exec Bool) :
    (left : Nat) → List String → Exec Unit
  | _, [] => pure ()
  | left, key :: rest => do
      if (← Exec.arrayAt id).contains key then
        match left with
        | 0 => tooMany
        | left + 1 =>
            Exec.assignVariable name (.text key)
            if ← turn then keyTurns tooMany id name turn left rest
      else keyTurns tooMany id name turn left rest

def recordTurns (turn : Exec Bool) : (left : Nat) → Exec Unit
  | 0 => pure ()
  | left + 1 => do
      if ← turn then recordTurns turn left

def turnLimit (kind : LoopKind) : Exec (Nat × Exec Unit) := do
  let limit := (← get).limits.iterations
  return (limit.toNat, Exec.exceed (.iterations kind) limit)

/-- How loops take their turns, and how expressions are evaluated. -/
structure Runner where
  services : Services
  whileLoop : (kind : LoopKind) → (test turn : Exec Bool) → Exec Unit
  doLoop : (test turn : Exec Bool) → Exec Unit
  keyLoop : (id : ArrayId) → (name : String) → (turn : Exec Bool) →
    (keys : List String) → Exec Unit
  recordLoop : (count : Nat) → (turn : Exec Bool) → Exec Unit

def Runner.limited (services : Services) : Runner where
  services := services
  whileLoop kind test turn := do
    let (left, tooMany) ← turnLimit kind
    whileTurns tooMany test turn left
  doLoop test turn := do
    let (left, tooMany) ← turnLimit .doLoop
    doTurns tooMany test turn left
  keyLoop id name turn keys := do
    let (left, tooMany) ← turnLimit .forIn
    keyTurns tooMany id name turn left keys
  recordLoop count turn := recordTurns turn count

/-! ## Statements -/

def holdsOption (run : Services) : Option Expr → Exec Bool
  | none => pure true
  | some e => isTrue run e

def evalOption (run : Services) : Option Expr → Exec Unit
  | none => pure ()
  | some e => do
      let _ ← evalWhole run e

def runExit (run : Services) (code : Option Expr) : Exec Unit := do
  match code with
  | none => pure ()
  | some e =>
      let n := (← evalWhole run e).toInteger
      modify fun m => { m with output := { m.output with exitCode := n } }
  Exec.note ["EXIT", "code", toString (← get).output.exitCode]
  modify fun m => { m with flow := { m.flow with exiting := true } }

def runReturn (run : Services) (value : Option Expr) : Exec Unit := do
  let v ←
    match value with
    | none => pure Value.unset
    | some e => evalWhole run e
  modify fun m => { m with flow := { m.flow with returned := some v,
                                                 returning := true } }

def runDelete (run : Services) (array : String) (keys : Option (List Expr)) :
    Exec Unit := do
  match keys with
  | none => Exec.clearArray array
  | some keys =>
      let parts ← keys.mapM fun e => do Exec.textOf (← evalWhole run e)
      Exec.deleteElement array ((← get).specials.subsep.intercalate parts)

mutual

def Stmt.exec (run : Runner) : Stmt → Exec Unit
  | .block body => Stmt.execAll run body
  | .expr e => do
      let _ ← evalWhole run.services e
  | .print args redirect => runPrint run.services args redirect
  | .printf format args redirect => runPrintf run.services format args redirect
  | .ifElse condition yes no => do
      if ← isTrue run.services condition then yes.exec run
        else Stmt.execOption run no
  | .whileLoop condition body =>
      run.whileLoop .whileLoop (isTrue run.services condition) do
        body.exec run
        endTurn
  | .doLoop body condition =>
      run.doLoop (isTrue run.services condition) do
        body.exec run
        endTurn
  | .forLoop init condition update body => do
      evalOption run.services init
      run.whileLoop .forLoop (holdsOption run.services condition) do
        body.exec run
        if ← endTurn then
          evalOption run.services update
          return true
        else return false
  | .forIn name array body => do
      let id ← Exec.useArray array
      let keys := (← Exec.arrayAt id).keys
      run.keyLoop id name
        (do
          body.exec run
          endTurn)
        keys
  | .breakLoop =>
      modify fun m => { m with flow := { m.flow with breaking := true } }
  | .continueLoop =>
      modify fun m => { m with flow := { m.flow with continuing := true } }
  | .nextRecord =>
      modify fun m => { m with flow := { m.flow with next := true } }
  | .nextFile =>
      modify fun m => { m with flow := { m.flow with nextFile := true } }
  | .exit code => runExit run.services code
  | .returnValue value => runReturn run.services value
  | .delete array keys => runDelete run.services array keys

def Stmt.execAll (run : Runner) : List Stmt → Exec Unit
  | [] => pure ()
  | s :: rest => do
      if (← get).flow.interrupted then return
      s.exec run
      Stmt.execAll run rest

def Stmt.execOption (run : Runner) : Option Stmt → Exec Unit
  | none => pure ()
  | some s => s.exec run

end

/-! ## The knot -/

/-- Run the body of a function, with at most `left` bodies nested in it. -/
def runBody : (left : Nat) → BodyRunner
  | 0, _ => do Exec.exceed .calls (← get).limits.calls
  | left + 1, f => Stmt.execAll (.limited (runBody left)) f.body

def runFunction : BodyRunner := fun f => do runBody (← get).limits.calls.toNat f

def Runner.standard : Runner := .limited runFunction

def evaluate (e : Expr) : Exec Value := evalWhole runFunction e

def execute (body : List Stmt) : Exec Unit := Stmt.execAll .standard body

end Awk
