import Awk.Source.Token

/-!
The grammar of expressions, loosest binding first.

Every level is a parser built from the levels it contains; the levels that occur
inside themselves are reached through `sub`.  `expression` ties the knot, with a
bound on how deeply they may nest.
-/

namespace Awk.Source

open Awk.Source.Parser (here optional steps many token require requireSilently)

inductive Level where
  | expr (greater : Bool)
  | unary
  | power
  | operand
  | field
  deriving DecidableEq, Repr

abbrev Levels := Level → Parser Term

/-! ## Lists and subscripts -/

def commaList {α : Type} (p : Parser α) : Parser (List α) := do
  let first ← p
  let rest ← many do
    blank
    symbol ","
    newlines
    p
  return first :: rest

def exprList (sub : Levels) : Parser (List Term) := commaList (sub (.expr true))

def subscript (sub : Levels) : Parser (List Term) := do
  blank
  symbol "["
  newlines
  let keys ← exprList sub
  newlines
  symbol "]"
  return keys

def arguments (sub : Levels) : Parser (List Term) := do
  symbol "("
  newlines
  let args ← optional (exprList sub)
  newlines
  symbol ")"
  return args.getD []

/-! ## Targets -/

def arrayElement (sub : Levels) : Parser Target := do
  let array ← name
  let keys ← subscript sub
  return .element array.text keys

def variableName : Parser Target := do
  let word ← name
  requireSilently fun rest => rest.head? != some '('
  return .variable word.text

def namedTarget (sub : Levels) : Parser Target :=
  arrayElement sub <|> variableName

/-! ## Operators before an operand -/

def unaryTerm (sub : Levels) : Parser Term := do
  let (op, _) ← operator unaryOps
  blank
  let operand ← sub .unary
  return .unary op operand

def preIncrement (sub : Levels) : Parser Term := do
  let (up, word) ← operator stepOps
  blank
  let operand ← sub .field
  return .preIncrement up word operand

def fieldTarget (sub : Levels) : Parser Target := do
  symbol "$"
  blank
  let index ← preIncrement sub <|> unaryTerm sub <|> sub .field
  return .field index

def target (sub : Levels) : Parser Target := fieldTarget sub <|> namedTarget sub

/-! ## Primaries -/

def numberTerm : Parser Term := do
  let word ← number
  return .number (Number.ofText word.text)

def stringTerm : Parser Term := do
  let word ← token scanString
  return .string word.body

def openStringTerm : Parser Term := do
  let word ← token scanOpenString
  return .openString word.offset

def regexTerm : Parser Term := do
  let word ← token scanRegex
  return .regex word.body

def openRegexTerm : Parser Term := do
  let word ← token scanOpenRegex
  return .openRegex word.offset

def group (sub : Levels) : Parser Term := do
  symbol "("
  newlines
  let parts ← exprList sub
  newlines
  symbol ")"
  return .group parts

def getlineTerm (sub : Levels) : Parser Term := do
  let _ ← keyword "getline"
  let place ← optional do
    blank
    target sub
  let file ← optional do
    blank
    symbolNotBefore "<" ['=']
    blank
    sub .operand
  return .getline place file

def builtinCall (sub : Levels) : Parser Term := do
  let word ← builtinName
  blank
  let args ← arguments sub
  return .call word.text args

def bareBuiltin : Parser Term := do
  let word ← builtinName
  return .bareBuiltin word

def functionCall (sub : Levels) : Parser Term := do
  let word ← name
  let args ← arguments sub
  return .call word.text args

/-- The primaries that do not start with a free name used as a variable. -/
def closedPrimary (sub : Levels) : Parser Term :=
  numberTerm <|> stringTerm <|> openStringTerm <|> regexTerm <|>
    openRegexTerm <|> group sub <|> getlineTerm sub <|> builtinCall sub <|>
    bareBuiltin <|> functionCall sub

def primary (sub : Levels) : Parser Term :=
  closedPrimary sub <|> (do let t ← namedTarget sub; return .target t)

def field (sub : Levels) : Parser Term :=
  (do let t ← fieldTarget sub; return .target t) <|> primary sub

def steppedTarget (t : Target) : Parser Term :=
  (do
    blank
    let (up, _) ← operator stepOps
    return .postIncrement t up)
  <|> return .target t

def operand (sub : Levels) : Parser Term :=
  preIncrement sub
    <|> (do let t ← target sub; steppedTarget t)
    <|> closedPrimary sub

/-! ## Operators between operands -/

/-- Powers group to the right, and an exponent may have a sign of its own. -/
def power (sub : Levels) : Parser Term := do
  let base ← sub .operand
  (do
    blank
    let (op, _) ← operator powerOps
    blank
    let exponent ← unaryTerm sub <|> sub .power
    return .binary op base exponent)
  <|> return base

def unary (sub : Levels) : Parser Term := unaryTerm sub <|> sub .power

def leftGrouped (operand : Parser Term) (step : Term → Parser Term) :
    Parser Term := do
  let first ← operand
  steps step first

def binaryStep (ops : List (Operator BinaryOp)) (operand : Parser Term)
    (left : Term) :
    Parser Term := do
  blank
  let (op, _) ← operator ops
  newlines
  let right ← operand
  return .binary op left right

def product (sub : Levels) : Parser Term :=
  leftGrouped (sub .unary) (binaryStep mulOps (sub .unary))

def sum (sub : Levels) : Parser Term :=
  leftGrouped (product sub) (binaryStep addOps (product sub))

def concatStep (sub : Levels) (left : Term) : Parser Term := do
  blank
  require fun rest => !startsOperator rest
  let right ← sum sub
  return .binary .concat left right

def concatenation (sub : Levels) : Parser Term :=
  leftGrouped (sum sub) (concatStep sub)

def lastBar (start : Cursor) (stop : Nat) : Nat :=
  let text := start.rest.take (stop - start.offset)
  stop - 1 - (text.reverse.takeWhile (· != '|')).length

def pipeStep (sub : Levels) (start : Cursor) : Parser Term := do
  blank
  symbolNotBefore "|" ['|']
  blank
  let _ ← keyword "getline"
  let _ ← optional do
    blank
    target sub
  let stop ← here
  return .pipe (lastBar start stop.offset)

def compareStep (sub : Levels) (greater : Bool) (left : Term) :
    Parser Term := do
  blank
  let (op, _) ← operator (compareOps greater)
  blank
  let right ← concatenation sub
  return .binary op left right

/-- Comparisons do not group: there is at most one. -/
def comparison (sub : Levels) (greater : Bool) : Parser Term := do
  let start ← here
  let left ← concatenation sub
  pipeStep sub start <|> compareStep sub greater left <|> return left

def matchStep (sub : Levels) (greater : Bool) (left : Term) : Parser Term := do
  blank
  let (op, _) ← operator matchOps
  blank
  let right ← comparison sub greater
  return .binary op left right

def matching (sub : Levels) (greater : Bool) : Parser Term :=
  leftGrouped (comparison sub greater) (matchStep sub greater)

def memberStep (left : Term) : Parser Term := do
  blank
  let _ ← keyword "in"
  blank
  let array ← name
  return .member left array.text

def membership (sub : Levels) (greater : Bool) : Parser Term :=
  leftGrouped (matching sub greater) memberStep

def conjunction (sub : Levels) (greater : Bool) : Parser Term :=
  leftGrouped (membership sub greater) (binaryStep [⟨"&&", [],
    .and⟩] (membership sub greater))

def disjunction (sub : Levels) (greater : Bool) : Parser Term :=
  leftGrouped (conjunction sub greater)
    (binaryStep [⟨"||", [], .or⟩] (conjunction sub greater))

def assignStep (sub : Levels) (greater : Bool) (left : Term) : Parser Term := do
  blank
  let (op, word) ← operator assignOps
  newlines
  let value ← sub (.expr greater)
  return .assign op word left value

def ternaryStep (sub : Levels) (greater : Bool) (condition : Term) :
    Parser Term := do
  blank
  symbol "?"
  newlines
  let yes ← sub (.expr greater)
  newlines
  symbol ":"
  newlines
  let no ← sub (.expr greater)
  return .ternary condition yes no

def wholeExpr (sub : Levels) (greater : Bool) : Parser Term := do
  let left ← disjunction sub greater
  assignStep sub greater left <|> ternaryStep sub greater left <|> return left

/-! ## The knot -/

def levelBody (sub : Levels) : Level → Parser Term
  | .expr greater => wholeExpr sub greater
  | .unary => unary sub
  | .power => power sub
  | .operand => operand sub
  | .field => field sub

/-- Expressions whose levels nest less than `depth` deep. -/
def expression : (depth : Nat) → Levels
  | 0, _ => Parser.tooDeep
  | depth + 1, level => levelBody (expression depth) level

end Awk.Source
