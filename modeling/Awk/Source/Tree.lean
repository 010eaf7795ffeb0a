import Awk.Program.Basic

/-!
Source text as the grammar sees it.

Parentheses, literal bodies and the places of words that a later check may
complain about are kept. The grammar alone makes sure that `getline` and the
operators behind an operand are applied to something assignable; other targets
are still arbitrary terms.
-/

namespace Awk.Source

structure Word where
  text : String
  offset : Nat
  deriving DecidableEq, Repr

mutual

inductive Target where
  | variable (name : String)
  | element (array : String) (keys : List Term)
  | field (index : Term)

inductive Term where
  | number (x : Number)
  | string (body : String)
  | regex (body : String)
  | openString (offset : Nat)
  | openRegex (offset : Nat)
  | target (t : Target)
  | group (parts : List Term)
  | getline (target : Option Target) (file : Option Term)
  | pipe (bar : Nat)
  | call (name : String) (args : List Term)
  | bareBuiltin (name : Word)
  | unary (op : UnaryOp) (operand : Term)
  | binary (op : BinaryOp) (left right : Term)
  | member (key : Term) (array : String)
  | ternary (condition yes no : Term)
  | assign (op : Option Arithmetic) (word : Word) (target value : Term)
  | preIncrement (up : Bool) (word : Word) (operand : Term)
  | postIncrement (target : Target) (up : Bool)

end

deriving instance Repr for Target, Term
deriving instance BEq for Target, Term

instance : Inhabited Term := ⟨.string ""⟩

inductive Channel where
  | truncate
  | append
  | pipe
  deriving DecidableEq, Repr

structure Redirection where
  channel : Channel
  word : Word
  destination : Term
  deriving Repr, BEq

inductive Statement where
  | block (body : List Statement)
  | expr (e : Term)
  | print (keyword : Word) (args : List Term) (redirect : Option Redirection)
  | ifElse (condition : Term) (yes : Statement) (no : Option Statement)
  | whileLoop (condition : Term) (body : Statement)
  | doLoop (body : Statement) (condition : Term)
  | forLoop (init condition update : Option Term) (body : Statement)
  | forIn (name array : String) (body : Statement)
  | breakLoop
  | continueLoop
  | nextRecord
  | nextFile
  | exit (code : Option Term)
  | returnValue (value : Option Term)
  | delete (array : String) (keys : List Term)
  deriving Repr, BEq

instance : Inhabited Statement := ⟨.block []⟩

inductive Head where
  | begin
  | finish
  | always
  | pattern (t : Term)
  | range (start stop : Term)
  deriving Repr, BEq

inductive Item where
  | function (name : Word) (params : List Word) (body : List Statement)
  | rule (head : Head) (action : Option (List Statement))
  deriving Repr, BEq

end Awk.Source
