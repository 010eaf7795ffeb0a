import Awk.Source.Expression

/-!
The grammar of statements, rules and programs.

Newlines and semicolons end simple statements.  A lone semicolon is an empty
body.
-/

namespace Awk.Source

open Awk.Source.Parser (optional many token)

/-! ## Parts of statements -/

def condition (expr : Parser Term) : Parser Term := do
  symbol "("
  newlines
  let e ← expr
  newlines
  symbol ")"
  return e

def body (statement : Parser Statement) : Parser Statement := do
  newlines
  (do symbol ";"; return .block []) <|> statement

def block (statement : Parser Statement) : Parser (List Statement) := do
  symbol "\x7b"
  terms
  let statements ← many do
    let s ← statement
    terms
    return s
  symbol "\x7d"
  return statements

/-! ## Compound statements -/

def elseBranch (statement : Parser Statement) : Parser Statement := do
  terms
  let _ ← keyword "else"
  body statement

def ifStatement (expr : Parser Term) (statement : Parser Statement) :
    Parser Statement := do
  let _ ← keyword "if"
  blank
  let test ← condition expr
  let yes ← body statement
  let no ← optional (elseBranch statement)
  return .ifElse test yes no

def whileStatement (expr : Parser Term) (statement : Parser Statement) :
    Parser Statement := do
  let _ ← keyword "while"
  blank
  let test ← condition expr
  let looped ← body statement
  return .whileLoop test looped

def doStatement (expr : Parser Term) (statement : Parser Statement) :
    Parser Statement := do
  let _ ← keyword "do"
  let looped ← body statement
  terms
  let _ ← keyword "while"
  blank
  let test ← condition expr
  blank
  statementEnd
  return .doLoop looped test

def forInStatement (statement : Parser Statement) : Parser Statement := do
  let _ ← keyword "for"
  blank
  symbol "("
  blank
  let key ← name
  blank
  let _ ← keyword "in"
  blank
  let array ← name
  blank
  symbol ")"
  let looped ← body statement
  return .forIn key.text array.text looped

def forStatement (expr : Parser Term) (statement : Parser Statement) :
    Parser Statement := do
  let _ ← keyword "for"
  blank
  symbol "("
  newlines
  let init ← optional expr
  blank
  symbol ";"
  newlines
  let test ← optional expr
  blank
  symbol ";"
  newlines
  let update ← optional expr
  newlines
  symbol ")"
  let looped ← body statement
  return .forLoop init test update looped

/-! ## Simple statements -/

def redirect (sub : Levels) : Parser Redirection := do
  blank
  let (channel, word) ← operator redirectOps
  blank
  let destination ← concatenation sub
  return ⟨channel, word, destination⟩

def printStatement (sub : Levels) : Parser Statement := do
  let word ← token (scanWord ["print", "printf"])
  let args ← optional do
    blank
    commaList (sub (.expr false))
  let output ← optional (redirect sub)
  return .print word (args.getD []) output

def wordStatement (word : String) (s : Statement) : Parser Statement := do
  let _ ← keyword word
  return s

def valueStatement (word : String) (make : Option Term → Statement)
    (expr : Parser Term) :
    Parser Statement := do
  let _ ← keyword word
  let value ← optional do
    blank
    expr
  return make value

def deleteStatement (sub : Levels) : Parser Statement := do
  let _ ← keyword "delete"
  blank
  let array ← name
  let keys ← optional (subscript sub)
  return .delete array.text (keys.getD [])

def simpleStatement (sub : Levels) : Parser Statement :=
  printStatement sub
    <|> wordStatement "nextfile" .nextFile
    <|> wordStatement "next" .nextRecord
    <|> wordStatement "break" .breakLoop
    <|> wordStatement "continue" .continueLoop
    <|> valueStatement "exit" .exit (sub (.expr true))
    <|> valueStatement "return" .returnValue (sub (.expr true))
    <|> deleteStatement sub
    <|> (do let e ← sub (.expr true); return .expr e)

def endedStatement (sub : Levels) : Parser Statement := do
  let s ← simpleStatement sub
  blank
  statementEnd
  return s

/-! ## The knot -/

def statementBody (sub : Levels) (nested : Parser Statement) :
    Parser Statement :=
  (do let statements ← block nested; return .block statements)
    <|> ifStatement (sub (.expr true)) nested
    <|> whileStatement (sub (.expr true)) nested
    <|> doStatement (sub (.expr true)) nested
    <|> forInStatement nested
    <|> forStatement (sub (.expr true)) nested
    <|> endedStatement sub

/-- Statements that nest less than `depth` deep, the levels of their expressions
included. -/
def statement : (depth : Nat) → Parser Statement
  | 0 => Parser.tooDeep
  | depth + 1 => statementBody (expression depth) (statement depth)

/-! ## Rules and programs -/

def functionItem (statement : Parser Statement) : Parser Item := do
  let _ ← token (scanWord ["func", "function"])
  blank
  let word ← token scanName
  blank
  symbol "("
  newlines
  let params ← optional (commaList name)
  newlines
  symbol ")"
  newlines
  let statements ← block statement
  return .function word (params.getD []) statements

def specialItem (word : String) (head : Head) (statement : Parser Statement) :
    Parser Item := do
  let _ ← keyword word
  newlines
  let statements ← block statement
  return .rule head (some statements)

def actionItem (statement : Parser Statement) : Parser Item := do
  let statements ← block statement
  return .rule .always (some statements)

def patternItem (expr : Parser Term) (statement : Parser Statement) :
    Parser Item := do
  let start ← expr
  let stop ← optional do
    blank
    symbol ","
    newlines
    expr
  blank
  let action ← (do let statements ← block statement; return some statements) <|>
      (do ruleEnd; return none)
  let head :=
    match stop with
    | some stop => .range start stop
    | none => .pattern start
  return .rule head action

def item (expr : Parser Term) (statement : Parser Statement) : Parser Item :=
  functionItem statement
    <|> specialItem "BEGIN" .begin statement
    <|> specialItem "END" .finish statement
    <|> actionItem statement
    <|> patternItem expr statement

def program (depth : Nat) : Parser (List Item) := do
  terms
  let items ← many do
    let i ← item (expression depth (.expr true)) (statement depth)
    terms
    return i
  endOfFile
  return items

end Awk.Source
