import Awk.Source.Error
import Awk.Source.Literal
import Awk.Source.Tree

/-!
From source trees to programs: what the grammar cannot say.

Trees are checked from left to right and the first complaint ends the check.
Assignments and the operators before an operand need a target; literals have to
be closed; pipes are refused; functions and their parameters have names of their
own.
-/

namespace Awk.Source

structure Complaint where
  cause : Cause
  offset : Nat
  deriving DecidableEq, Repr

abbrev Checked (α : Type) := Except Complaint α

def placeOf (e : Expr) (complaint : Complaint) : Checked Place :=
  match e with
  | .read place => .ok place
  | _ => .error complaint

def grouped : List Expr → Expr
  | [e] => e
  | es => .tuple es

/-- The parts of a subscript; a list in parentheses alone is its parts. -/
def subscriptOf : List Expr → List Expr
  | [.tuple elements] => elements
  | keys => keys

mutual

def Target.check : Target → Checked Place
  | .variable name => .ok (.variable name)
  | .element array keys => do
      let keys ← Term.checkAll keys
      return .element array (subscriptOf keys)
  | .field index => do
      let index ← index.check
      return .field index

def Term.check : Term → Checked Expr
  | .number x => .ok (.number x)
  | .string body => .ok (.string (unescapeString body))
  | .regex body => .ok (.regex (unescapeRegex body))
  | .openString offset => .error ⟨.unterminatedString, offset⟩
  | .openRegex offset => .error ⟨.unterminatedRegex, offset⟩
  | .target t => do
      let place ← t.check
      return .read place
  | .group parts => do
      let parts ← Term.checkAll parts
      return grouped parts
  | .getline target file => do
      let place ← Target.checkOption target
      let file ← Term.checkOption file
      return .getline place file
  | .pipe bar => .error ⟨.commandPipe, bar⟩
  | .call name args => do
      let args ← Term.checkAll args
      return .call name args
  | .bareBuiltin word =>
      if word.text = "length" then .ok (.call "length" [])
      else .error ⟨.missingArguments word.text, word.offset⟩
  | .unary op operand => do
      let operand ← operand.check
      return .unary op operand
  | .binary op left right => do
      let left ← left.check
      let right ← right.check
      return .binary op left right
  | .member key array => do
      let key ← key.check
      return .member (subscriptOf [key]) array
  | .ternary condition yes no => do
      let condition ← condition.check
      let yes ← yes.check
      let no ← no.check
      return .ternary condition yes no
  | .assign op word target value => do
      let left ← target.check
      let place ← placeOf left ⟨.invalidTarget word.text, word.offset⟩
      let value ← value.check
      return .assign op place value
  | .preIncrement up word operand => do
      let operand ← operand.check
      let place ← placeOf operand ⟨.invalidOperand word.text, word.offset⟩
      return .increment place up false
  | .postIncrement target up => do
      let place ← target.check
      return .increment place up true

def Term.checkAll : List Term → Checked (List Expr)
  | [] => .ok []
  | t :: rest => do
      let e ← t.check
      let es ← Term.checkAll rest
      return e :: es

def Term.checkOption : Option Term → Checked (Option Expr)
  | none => .ok none
  | some t => do
      let e ← t.check
      return some e

def Target.checkOption : Option Target → Checked (Option Place)
  | none => .ok none
  | some t => do
      let place ← t.check
      return some place

end

/-! ## Statements -/

def Redirection.check (r : Redirection) : Checked Redirect :=
  match r.channel with
  | .pipe => .error ⟨.outputPipe, r.word.offset⟩
  | .append => do return ⟨true, ← r.destination.check⟩
  | .truncate => do return ⟨false, ← r.destination.check⟩

def Redirection.checkOption : Option Redirection → Checked (Option Redirect)
  | none => .ok none
  | some r => do
      let redirect ← r.check
      return some redirect

/-- A list in parentheses that is the only argument of a print statement stands
for its parts. -/
def printArguments : List Expr → List Expr
  | [.tuple elements] => elements
  | args => args

def outputStatement (keyword : Word) (args : List Expr)
    (redirect : Option Redirect) : Checked Stmt :=
  if keyword.text = "printf" then
    match args with
    | [] => .error ⟨.missingFormat, keyword.offset⟩
    | format :: args => .ok (.printf format args redirect)
  else .ok (.print args redirect)

mutual

def Statement.check : Statement → Checked Stmt
  | .block body => do
      let body ← Statement.checkAll body
      return .block body
  | .expr e => do
      let e ← e.check
      return .expr e
  | .print keyword args redirect => do
      let args ← Term.checkAll args
      let redirect ← Redirection.checkOption redirect
      outputStatement keyword (printArguments args) redirect
  | .ifElse condition yes no => do
      let condition ← condition.check
      let yes ← yes.check
      let no ← Statement.checkOption no
      return .ifElse condition yes no
  | .whileLoop condition body => do
      let condition ← condition.check
      let body ← body.check
      return .whileLoop condition body
  | .doLoop body condition => do
      let body ← body.check
      let condition ← condition.check
      return .doLoop body condition
  | .forLoop init condition update body => do
      let init ← Term.checkOption init
      let condition ← Term.checkOption condition
      let update ← Term.checkOption update
      let body ← body.check
      return .forLoop init condition update body
  | .forIn name array body => do
      let body ← body.check
      return .forIn name array body
  | .breakLoop => .ok .breakLoop
  | .continueLoop => .ok .continueLoop
  | .nextRecord => .ok .nextRecord
  | .nextFile => .ok .nextFile
  | .exit code => do
      let code ← Term.checkOption code
      return .exit code
  | .returnValue value => do
      let value ← Term.checkOption value
      return .returnValue value
  | .delete array [] => .ok (.delete array none)
  | .delete array keys => do
      let keys ← Term.checkAll keys
      return .delete array (some (subscriptOf keys))

def Statement.checkAll : List Statement → Checked (List Stmt)
  | [] => .ok []
  | s :: rest => do
      let stmt ← s.check
      let stmts ← Statement.checkAll rest
      return stmt :: stmts

def Statement.checkOption : Option Statement → Checked (Option Stmt)
  | none => .ok none
  | some s => do
      let stmt ← s.check
      return some stmt

end

/-! ## Rules and functions -/

/-- A pattern literal alone is a pattern; any other expression is a
condition. -/
def guardOf : Expr → Guard
  | .regex pattern => .regex pattern
  | e => .expr e

def Head.check : Head → Checked Trigger
  | .begin => .ok .begin
  | .finish => .ok .finish
  | .always => .ok .always
  | .pattern t => do
      let e ← t.check
      return .when (guardOf e)
  | .range start stop => do
      let start ← start.check
      let stop ← stop.check
      return .range (guardOf start) (guardOf stop)

def checkRule (head : Head) (action : Option (List Statement)) :
    Checked Rule := do
  let trigger ← head.check
  match action with
  | none => return ⟨trigger, [.print [] none]⟩
  | some statements =>
      let stmts ← Statement.checkAll statements
      return ⟨trigger, stmts⟩

def checkFunctionName (defined : List String) (word : Word) : Checked Unit :=
  if builtinNames.contains word.text then .error ⟨.redefinedBuiltin word.text,
    word.offset⟩
  else if keywords.contains word.text then .error ⟨.keywordAsFunction word.text,
    word.offset⟩
  else if defined.contains word.text then .error ⟨.redefinedFunction word.text,
    word.offset⟩
  else .ok ()

def checkParam (function : String) (before : List String) (word : Word) :
    Checked Unit :=
  if before.contains word.text then .error ⟨.duplicateParameter word.text,
    word.offset⟩
  else if word.text = function then .error ⟨.shadowingParameter word.text,
    word.offset⟩
  else if specialNames.contains word.text
    then .error ⟨.specialParameter word.text, word.offset⟩
  else .ok ()

def checkParams (function : String) (before : List String) :
    List Word → Checked (List String)
  | [] => .ok before.reverse
  | word :: rest => do
      checkParam function before word
      checkParams function (word.text :: before) rest

def checkFunction (defined : List String) (word : Word) (params : List Word)
    (body : List Statement) : Checked Function := do
  checkFunctionName defined word
  let params ← checkParams word.text [] params
  let stmts ← Statement.checkAll body
  return ⟨word.text, params, stmts⟩

/-- Items in order; `defined` holds the names of the functions before them. -/
def checkItems (defined : List String) : List Item → Checked Program
  | [] => .ok ⟨[], []⟩
  | .function word params body :: rest => do
      let function ← checkFunction defined word params body
      let program ← checkItems (word.text :: defined) rest
      return { program with functions := function :: program.functions }
  | .rule head action :: rest => do
      let rule ← checkRule head action
      let program ← checkItems defined rest
      return { program with rules := rule :: program.rules }

end Awk.Source
