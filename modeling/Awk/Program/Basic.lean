import Awk.Arithmetic
import Awk.Value

/-!
Programs as trees.

What can stand on the left of an assignment is a type of its own, so every
assignment, increment and `getline` of a tree has a proper target.  A `printf`
always has a format.
-/

namespace Awk

inductive BinaryOp where
  | arithmetic (op : Arithmetic)
  | comparison (op : Comparison)
  | matching (negated : Bool)
  | concat
  | and
  | or
  deriving DecidableEq, Repr

inductive UnaryOp where
  | not
  | minus
  | plus
  deriving DecidableEq, Repr

mutual

inductive Place where
  | variable (name : String)
  | element (array : String) (keys : List Expr)
  | field (index : Expr)

inductive Expr where
  | number (x : Number)
  | string (s : String)
  | regex (pattern : String)
  | read (place : Place)
  | binary (op : BinaryOp) (left right : Expr)
  | unary (op : UnaryOp) (operand : Expr)
  | ternary (condition yes no : Expr)
  | call (name : String) (args : List Expr)
  | assign (op : Option Arithmetic) (place : Place) (value : Expr)
  | increment (place : Place) (up returnsOld : Bool)
  | member (keys : List Expr) (array : String)
  | getline (place : Option Place) (file : Option Expr)
  | tuple (elements : List Expr)

end

deriving instance Repr for Place, Expr
deriving instance BEq for Place, Expr

instance : Inhabited Expr := ⟨.string ""⟩

def Place.variableName? : Place → Option String
  | .variable name => some name
  | _ => none

structure Redirect where
  append : Bool
  target : Expr
  deriving Repr, BEq

inductive Stmt where
  | block (body : List Stmt)
  | expr (e : Expr)
  | print (args : List Expr) (redirect : Option Redirect)
  | printf (format : Expr) (args : List Expr) (redirect : Option Redirect)
  | ifElse (condition : Expr) (yes : Stmt) (no : Option Stmt)
  | whileLoop (condition : Expr) (body : Stmt)
  | doLoop (body : Stmt) (condition : Expr)
  | forLoop (init condition update : Option Expr) (body : Stmt)
  | forIn (name array : String) (body : Stmt)
  | breakLoop
  | continueLoop
  | nextRecord
  | nextFile
  | exit (code : Option Expr)
  | returnValue (value : Option Expr)
  | delete (array : String) (keys : Option (List Expr))
  deriving Repr, BEq

instance : Inhabited Stmt := ⟨.block []⟩

inductive Guard where
  | regex (pattern : String)
  | expr (e : Expr)
  deriving Repr, BEq

inductive Trigger where
  | begin
  | finish
  | always
  | when (guard : Guard)
  | range (start stop : Guard)
  deriving Repr, BEq

structure Rule where
  trigger : Trigger
  action : List Stmt
  deriving Repr, BEq

structure Function where
  name : String
  params : List String
  body : List Stmt
  deriving Repr, BEq

structure Program where
  rules : List Rule
  functions : List Function
  deriving Repr, BEq

/-! ## Names with a meaning of their own -/

def numericSpecials : List String := ["NR", "FNR", "RSTART", "RLENGTH"]

def textSpecials : List String :=
  ["FS", "OFS", "ORS", "RS", "SUBSEP", "CONVFMT", "OFMT", "FILENAME"]

def specialNames : List String :=
  "NF" :: "ENVIRON" :: numericSpecials ++ textSpecials

def keywords : List String :=
  ["BEGIN", "END", "function", "func", "if", "else", "while", "for", "do",
    "break", "continue", "next", "nextfile", "exit", "return", "delete", "in",
    "getline", "print", "printf"]

def builtinNames : List String :=
  ["length", "substr", "index", "split", "sub", "gsub", "match", "sprintf",
    "tolower", "toupper", "int", "sqrt", "exp", "log", "sin", "cos", "atan2",
    "rand", "srand", "close", "fflush"]

end Awk
