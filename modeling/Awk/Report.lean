import Awk.Machine.Basic
import Awk.Source.Error
import Awk.Source.Excerpt

/-!
What a host learns from a run: the output and the exit code, and what went
wrong.
-/

namespace Awk

inductive LimitKind where
  | iterations
  | recursion
  deriving DecidableEq, Repr

def LimitKind.text : LimitKind → String
  | .iterations => "iterations"
  | .recursion => "recursion"

structure Report where
  output : String := ""
  exitCode : Int := 0
  error : Option String := none
  position : Option Source.Position := none
  excerpt : Option String := none
  limit : Option LimitKind := none
  redirects : Table String := {}

namespace Report

def succeeded (r : Report) : Bool := r.error.isNone

def ofSyntaxError (script : String) (e : Source.SyntaxError) : Report :=
  { exitCode := 2
    error := some e.message
    position := e.position
    excerpt := e.position.map fun p =>
      Source.excerpt script (p.line : Int) (some (p.column : Int)) 2 }

def ofMachine (m : Machine) (exitCode : Int) : Report :=
  { output := m.output.text, exitCode := exitCode,
    redirects := m.output.redirects }

/-- The report on a fault that the language has a wording for. -/
def ofFault? (m : Machine) : Fault → Option Report
  | .fatal cause => some { ofMachine m 1 with error := some cause.message }
  | .iterations kind e =>
      some { ofMachine m 2 with
        output := e.written, error := some (iterationsMessage kind e), limit :=
          some .iterations }
  | .calls e =>
      some { ofMachine m 2 with
        output := e.written, error := some (callsMessage e), limit :=
          some .recursion }
  | .noRoom =>
      some { ofMachine m 2 with error := some noRoomMessage,
                                limit := some .recursion }
  | .pattern _ | .window _ | .size _ | .template _ | .frames _
  | .recordNumber _ | .unread _ => none

def errorText (r : Report) : String :=
  match r.error with
  | none => ""
  | some message =>
      let located :=
        match r.position with
        | some p =>
            "awk: line " ++ toString p.line ++ ", col " ++ toString p.column ++
              ": " ++ message
        | none => message
      match r.excerpt with
      | none | some "" => located
      | some excerpt => located ++ "\n" ++ excerpt

end Report

end Awk
