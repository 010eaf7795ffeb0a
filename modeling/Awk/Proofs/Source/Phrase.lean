import Awk.Program.Outline
import Awk.Source.Parse

/-!
# Expressions in parentheses

A phrase is an expression without pattern literals, with natural numbers, and
with names that are free to be given. `Phrase.text` writes it with each operand
in parentheses of its own, and `Phrase.expr` is the tree that it stands for.
`Phrase.depth` counts how deeply the levels of the grammar nest in the text.
-/

namespace Awk.Source

/-! ## Names -/

def isFreeName (s : String) : Bool :=
  match s.toList with
  | [] => false
  | c :: rest =>
      isNameStart c && rest.all Text.isAsciiWord &&
        !(keywords ++ builtinNames).contains s

abbrev FreeName := { s : String // isFreeName s = true }

abbrev FunctionName := { s : String // isFreeName s = true ∨ s ∈ builtinNames }

/-! ## Phrases -/

mutual

inductive Spot where
  | variable (name : FreeName)
  | element (array : FreeName) (key : Phrase) (more : List Phrase)
  | field (index : Phrase)

inductive Phrase where
  | number (n : Nat)
  | string (s : String)
  | read (spot : Spot)
  | binary (op : BinaryOp) (left right : Phrase)
  | unary (op : UnaryOp) (operand : Phrase)
  | ternary (condition yes no : Phrase)
  | call (name : FunctionName) (args : List Phrase)
  | assign (op : Option Arithmetic) (spot : Spot) (value : Phrase)
  | increment (spot : Spot) (up returnsOld : Bool)
  | member (key : Phrase) (array : FreeName)
  | getline (spot : Option Spot) (file : Option Phrase)
  | tuple (first second : Phrase) (rest : List Phrase)

end

/-! ## The tree of a phrase -/

def nearest (n : Nat) : Number := .real (Decimal.toFloat n 0)

def keyParts : Expr → List Expr
  | .tuple elements => elements
  | e => [e]

mutual

def Spot.place : Spot → Place
  | .variable name => .variable name
  | .element array key [] => .element array (keyParts key.expr)
  | .element array key (second :: more) =>
      .element array (key.expr :: second.expr :: Phrase.exprs more)
  | .field index => .field index.expr

def Phrase.expr : Phrase → Expr
  | .number n => .number (nearest n)
  | .string s => .string s
  | .read spot => .read spot.place
  | .binary op left right => .binary op left.expr right.expr
  | .unary op operand => .unary op operand.expr
  | .ternary condition yes no => .ternary condition.expr yes.expr no.expr
  | .call name args => .call name (Phrase.exprs args)
  | .assign op spot value => .assign op spot.place value.expr
  | .increment spot up returnsOld => .increment spot.place up returnsOld
  | .member key array => .member (keyParts key.expr) array
  | .getline spot file => .getline (Spot.place? spot) (Phrase.expr? file)
  | .tuple first second rest =>
      .tuple (first.expr :: second.expr :: Phrase.exprs rest)

def Phrase.exprs : List Phrase → List Expr
  | [] => []
  | x :: rest => x.expr :: Phrase.exprs rest

def Phrase.expr? : Option Phrase → Option Expr
  | none => none
  | some x => some x.expr

def Spot.place? : Option Spot → Option Place
  | none => none
  | some spot => some spot.place

end

/-! ## The text of a phrase -/

def escaped : List Char → List Char
  | [] => []
  | c :: rest =>
      if c = '\n' then '\\' :: 'n' :: escaped rest
      else if c = '\\' ∨ c = '"' then '\\' :: c :: escaped rest
      else c :: escaped rest

def between : BinaryOp → List Char
  | .concat => [' ']
  | op => ' ' :: op.spelling.toList ++ [' ']

def getlineText : List Char := "getline".toList

def stepText (up : Bool) : List Char := if up then ['+', '+'] else ['-', '-']

mutual

def Spot.text : Spot → List Char
  | .variable name => name.val.toList
  | .element array key more =>
      array.val.toList ++ '[' :: '(' :: key.text ++ ')' ::
        Phrase.moreText more ++ [']']
  | .field index => '$' :: '(' :: index.text ++ [')']

def Phrase.text : Phrase → List Char
  | .number n => Decimal.digits n
  | .string s => '"' :: escaped s.toList ++ ['"']
  | .read spot => spot.text
  | .binary op left right =>
      '(' :: left.text ++ ')' :: between op ++ '(' :: right.text ++ [')']
  | .unary op operand => op.spelling.toList ++ '(' :: operand.text ++ [')']
  | .ternary condition yes no =>
      '(' :: condition.text ++ ')' :: ' ' :: '?' :: ' ' :: '(' :: yes.text ++
        ')' :: ' ' :: ':' :: ' ' :: '(' :: no.text ++ [')']
  | .call name args => name.val.toList ++ '(' :: Phrase.listText args ++ [')']
  | .assign op spot value =>
      spot.text ++ ' ' :: (assignmentSpelling op).toList ++ ' ' :: '(' ::
        value.text ++ [')']
  | .increment spot up true => spot.text ++ stepText up
  | .increment spot up false => stepText up ++ spot.text
  | .member key array =>
      '(' :: key.text ++ ')' :: ' ' :: 'i' :: 'n' :: ' ' :: array.val.toList
  | .getline spot file =>
      getlineText ++ Spot.optionText spot ++ Phrase.fileText file
  | .tuple first second rest =>
      '(' :: '(' :: first.text ++ ')' :: ',' :: ' ' :: '(' :: second.text ++
        ')' :: Phrase.moreText rest ++ [')']

def Phrase.moreText : List Phrase → List Char
  | [] => []
  | x :: rest => ',' :: ' ' :: '(' :: x.text ++ ')' :: Phrase.moreText rest

def Phrase.listText : List Phrase → List Char
  | [] => []
  | x :: rest => '(' :: x.text ++ ')' :: Phrase.moreText rest

def Spot.optionText : Option Spot → List Char
  | none => []
  | some spot => ' ' :: spot.text

def Phrase.fileText : Option Phrase → List Char
  | none => []
  | some file => ' ' :: '<' :: ' ' :: '(' :: file.text ++ [')']

end

/-! ## The depth of a phrase -/

mutual

def Spot.depth : Spot → Nat
  | .variable _ => 0
  | .element _ key more => max (key.depth + 4) (Phrase.depthAll more)
  | .field index => index.depth + 1

/-- How deeply the levels nest.  An operand is the fourth level of an
expression, and one is looked for where a call has no arguments. -/
def Phrase.depth : Phrase → Nat
  | .number _ | .string _ => 4
  | .read spot => spot.depth + 4
  | .binary (.arithmetic .pow) left right =>
      max (left.depth + 4) (right.depth + 5)
  | .binary _ left right => max (left.depth + 4) (right.depth + 4)
  | .unary _ operand => operand.depth + 5
  | .ternary condition yes no =>
      max (condition.depth + 4) (max (yes.depth + 5) (no.depth + 5))
  | .call _ args => max (Phrase.depthAll args) 4 + 4
  | .assign _ spot value => max (spot.depth + 4) (value.depth + 5)
  | .increment spot _ true => spot.depth + 4
  | .increment spot _ false => spot.depth + 5
  | .member key _ => key.depth + 4
  | .getline spot file =>
      max (Spot.depthOption spot) (Phrase.depthOption file) + 4
  | .tuple first second rest =>
      max (first.depth + 4) (max (second.depth + 4) (Phrase.depthAll rest)) + 4

def Phrase.depthAll : List Phrase → Nat
  | [] => 0
  | x :: rest => max (x.depth + 4) (Phrase.depthAll rest)

def Spot.depthOption : Option Spot → Nat
  | none => 0
  | some spot => spot.depth

def Phrase.depthOption : Option Phrase → Nat
  | none => 0
  | some file => file.depth + 1

end

theorem Phrase.depth_power (left right : Phrase) :
    (Phrase.binary (.arithmetic .pow) left right).depth =
      max (left.depth + 4) (right.depth + 5) := by
  rw [Phrase.depth]

theorem Phrase.depth_binary {op : BinaryOp} (low : op ≠ .arithmetic .pow)
    (left right : Phrase) :
    (Phrase.binary op left right).depth =
      max (left.depth + 4) (right.depth + 4) := by
  rw [Phrase.depth]
  exact low

end Awk.Source
