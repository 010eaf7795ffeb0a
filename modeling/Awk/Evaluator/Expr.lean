import Awk.Evaluator.Builtin
import Awk.Evaluator.Call
import Awk.Text.Quoted

/-!
What expressions mean.

Evaluation is from left to right, except that an assignment evaluates its value
before its target.  `run` says how the body of a called function is run and how
the next record is read.
-/

namespace Awk

/-! ## Reading lines -/

def storeLine (place : Option (Exec Location)) (text : String) : Exec Unit :=
  match place with
  | none => Exec.setLine text
  | some locate => do Exec.writeAt (← locate) (.text text)

/-- Read the next record of the main input: one if there is one, zero at its
end, minus one without input. -/
def readNextRecord (place : Option (Exec Location)) : Exec Number := do
  match ← Exec.records with
  | none => return -Number.one
  | some records =>
      let next := (← get).input.next
      match records[next]? with
      | none => return Number.zero
      | some line =>
          storeLine place line
          Exec.countRecord
          Exec.setNextRecord (next + 1)
          return Number.one

def readLineAt (path : String) (cursor : FileCursor)
    (place : Option (Exec Location)) :
    Exec Number := do
  match cursor.lines with
  | none => return -Number.one
  | some lines =>
      match lines[cursor.next]? with
      | none => return Number.zero
      | some line =>
          Exec.setCursor path (some { cursor with next := cursor.next + 1 })
          storeLine place line
          return Number.one

def readNextLine (file : Exec Value) (place : Option (Exec Location)) :
    Exec Number := do
  match (← get).files.system with
  | none => return -Number.one
  | some system =>
      let name ← Exec.textOf (← file)
      match system.resolve (← get).files.cwd name with
      | none =>
          Exec.note ["GETLINE", "cannot resolve", Text.quoted name,
            name ++ ": outside of the root"]
          return -Number.one
      | some path =>
          let cursor ←
            match ← Exec.cursorAt path with
            | some cursor => pure cursor
            | none => Exec.openFile system path
          readLineAt path cursor place

/-! ## Operators -/

def UnaryOp.apply (op : UnaryOp) (v : Value) : Value :=
  match op with
  | .not => .ofBool (!v.truth)
  | .minus => .number (-v.toNumber)
  | .plus => .number v.toNumber

def Expr.literalPattern? : Expr → Option String
  | .regex pattern => some pattern
  | _ => none

def applyArithmetic (op : Arithmetic) (left right : Value) : Exec Value :=
  match op.apply left.toNumber right.toNumber with
  | .ok x => pure (.number x)
  | .error e => Exec.fatal (.division e)

/-- Call a built-in function or one of the program.  A name that is neither
gives the unset value. -/
def callByName (run : BodyRunner) (name : String) (args : List Argument) :
    Exec Value :=
  match Builtin.ofName? name with
  | some b => b.run args
  | none => do
      match (← get).functions.get? name with
      | some f => callFunction run f args
      | none =>
          Exec.note ["CALL", "unknown function", name]
          return Value.unset

/-! ## Expressions -/

/-- What evaluation leaves to others: running bodies and reading records. -/
structure Services where
  body : BodyRunner
  nextRecord : Option (Exec Location) → Exec Number := readNextRecord

instance : Coe BodyRunner Services := ⟨fun run => { body := run }⟩

mutual

def Place.locate (run : Services) : Place → Exec Location
  | .variable name => pure (.variable name)
  | .element array keys => do
      let parts ← Expr.texts run keys
      return .element array ((← get).specials.subsep.intercalate parts)
  | .field index => do
      let v ← index.eval run
      return .field v.toNumber.floor

def Expr.eval (run : Services) : Expr → Exec Value
  | .number x => pure (.number x)
  | .string s => pure (.text s)
  | .regex
      pattern => do return .ofBool (← Exec.occurs pattern (← get).record.line)
  | .read place => do
      let l ← place.locate run
      Exec.readAt l
  | .binary .and left right => do
      if (← left.eval run).truth then return .ofBool (← right.eval run).truth
      else return .ofBool false
  | .binary .or left right => do
      if (← left.eval run).truth then return .ofBool true
      else return .ofBool (← right.eval run).truth
  | .binary (.matching negated) left right => do
      let text ← Exec.textOf (← left.eval run)
      let pattern ←
        match right.literalPattern? with
        | some pattern => pure pattern
        | none => do Exec.textOf (← right.eval run)
      let found ← Exec.occurs pattern text
      return .ofBool (found != negated)
  | .binary (.arithmetic op) left right => do
      let a ← left.eval run
      let b ← right.eval run
      applyArithmetic op a b
  | .binary (.comparison op) left right => do
      let a ← left.eval run
      let b ← right.eval run
      return .ofBool (← Exec.compare op a b)
  | .binary .concat left right => do
      let a ← left.eval run
      let b ← right.eval run
      let s ← Exec.textOf a
      let t ← Exec.textOf b
      return .text (s ++ t)
  | .unary op operand => do
      let v ← operand.eval run
      return op.apply v
  | .ternary condition yes no => do
      if (← condition.eval run).truth then yes.eval run else no.eval run
  | .call name args => callByName run.body name (Expr.arguments run args)
  | .assign op place value => do
      let v ← value.eval run
      let l ← place.locate run
      match op with
      | none =>
          Exec.writeAt l v
          return v
      | some op =>
          let x := op.update (← Exec.readAt l).toNumber v.toNumber
          Exec.writeAt l (.number x)
          return .number x
  | .increment place up returnsOld => do
      let l ← place.locate run
      let before := (← Exec.readAt l).toNumber
      let after := if up then before + Number.one else before + -Number.one
      Exec.writeAt l (.number after)
      return .number (if returnsOld then before else after)
  | .member keys array => do
      let parts ← Expr.texts run keys
      let key := (← get).specials.subsep.intercalate parts
      return .ofBool (← Exec.hasElement array key)
  | .getline place none => do
      return .number (← run.nextRecord (Place.locateOption run place))
  | .getline place (some file) => do
      return .number (← readNextLine (file.eval run)
        (Place.locateOption run place))
  | .tuple elements => Expr.evalLast run Value.unset elements

def Expr.evalLast (run : Services) (last : Value) : List Expr → Exec Value
  | [] => pure last
  | e :: rest => do
      let v ← e.eval run
      Expr.evalLast run v rest

def Expr.texts (run : Services) : List Expr → Exec (List String)
  | [] => pure []
  | e :: rest => do
      let text ← Exec.textOf (← e.eval run)
      let texts ← Expr.texts run rest
      return text :: texts

def Place.locateOption (run : Services) : Option Place → Option (Exec Location)
  | none => none
  | some place => some (place.locate run)

def Expr.arguments (run : Services) : List Expr → List Argument
  | [] => []
  | .read place :: rest =>
      { value := do Exec.readAt (← place.locate run)
        name := place.variableName?
        pattern := none
        location := some (place.locate run) } :: Expr.arguments run rest
  | e :: rest =>
      { value := e.eval run
        name := none
        pattern := e.literalPattern?
        location := none } :: Expr.arguments run rest

end

end Awk
