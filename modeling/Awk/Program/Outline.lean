import Awk.Program.Basic
import Awk.Number.Shortest
import Awk.Text.Quoted

/-!
Outlines: a program as nested named nodes, for showing it.

`Program.outline` gives every part of a program a name and its fields names in a
fixed order; `Outline.text` writes an outline on one line.
-/

namespace Awk

inductive Outline where
  | node (name : String) (fields : List (String × Outline))
  | list (items : List Outline)
  | tuple (items : List Outline)
  | text (s : String)
  | number (x : Number)
  | integer (n : Int)
  | flag (b : Bool)
  | nothing

namespace Outline

def leaf (name : String) : Outline := .node name []

def option (o : Option Outline) : Outline := o.getD .nothing

def texts (names : List String) : List Outline := names.map .text

def subscript : List Outline → Outline
  | [key] => key
  | keys => .node "Tuple" [("elements", .list keys)]

def tupleText : List String → String
  | [item] => "(" ++ item ++ ",)"
  | items => "(" ++ ", ".intercalate items ++ ")"

mutual

def render : Outline → String
  | .node name fields =>
      name ++ "(" ++ ", ".intercalate (renderFields fields) ++ ")"
  | .list items => "[" ++ ", ".intercalate (renderAll items) ++ "]"
  | .tuple items => tupleText (renderAll items)
  | .text s => Text.quoted s
  | .number x => x.shortestText
  | .integer n => toString n
  | .flag b => if b then "True" else "False"
  | .nothing => "None"

def renderAll : List Outline → List String
  | [] => []
  | item :: rest => render item :: renderAll rest

def renderFields : List (String × Outline) → List String
  | [] => []
  | (name, value) :: rest => (name ++ "=" ++ render value) :: renderFields rest

end

end Outline

/-! ## Operators -/

def BinaryOp.spelling : BinaryOp → String
  | .arithmetic op => op.spelling
  | .comparison op => op.spelling
  | .matching negated => if negated then "!~" else "~"
  | .concat => "concat"
  | .and => "&&"
  | .or => "||"

def UnaryOp.spelling : UnaryOp → String
  | .not => "!"
  | .minus => "-"
  | .plus => "+"

def assignmentSpelling : Option Arithmetic → String
  | none => "="
  | some op => op.spelling ++ "="

/-! ## Expressions -/

mutual

def Place.outline : Place → Outline
  | .variable name => .node "Variable" [("name", .text name)]
  | .element array keys =>
      .node "ArrayAccess" [("array", .text array),
        ("key", Outline.subscript (Expr.outlines keys))]
  | .field index => .node "FieldRef" [("index", index.outline)]

def Expr.outline : Expr → Outline
  | .number x => .node "NumberLiteral" [("value", .number x)]
  | .string s => .node "StringLiteral" [("value", .text s)]
  | .regex pattern => .node "RegexLiteral" [("pattern", .text pattern)]
  | .read place => place.outline
  | .binary op left right =>
      .node "BinaryOp" [("op", .text op.spelling), ("left", left.outline),
        ("right", right.outline)]
  | .unary op operand =>
      .node "UnaryOp" [("op", .text op.spelling), ("operand", operand.outline)]
  | .ternary condition yes no =>
      .node "Ternary" [("condition", condition.outline),
        ("consequent", yes.outline), ("alternate", no.outline)]
  | .call name args =>
      .node "FunctionCall" [("name", .text name),
        ("args", .list (Expr.outlines args))]
  | .assign op place value =>
      .node "Assignment" [("op", .text (assignmentSpelling op)),
        ("target", place.outline), ("value", value.outline)]
  | .increment place up returnsOld =>
      .node "IncDec"
        [("target", place.outline), ("delta", .integer (if up then 1 else -1)),
         ("return_old", .flag returnsOld)]
  | .member keys array =>
      .node "InExpr" [("key", Outline.subscript (Expr.outlines keys)),
        ("array", .text array)]
  | .getline place file =>
      .node "Getline" [("target", Place.outline? place),
        ("file", Expr.outline? file)]
  | .tuple elements =>
      .node "Tuple" [("elements", .list (Expr.outlines elements))]

def Expr.outlines : List Expr → List Outline
  | [] => []
  | e :: rest => e.outline :: Expr.outlines rest

def Expr.outline? : Option Expr → Outline
  | none => .nothing
  | some e => e.outline

def Place.outline? : Option Place → Outline
  | none => .nothing
  | some p => p.outline

end

/-! ## Statements -/

def Redirect.outline (r : Redirect) : Outline :=
  .node "OutputRedirect" [("mode", .text (if r.append then ">>" else ">")),
    ("target", r.target.outline)]

def outputOutline (name : String) (args : List Expr)
    (redirect : Option Redirect) : Outline :=
  .node name [("args", .list (Expr.outlines args)),
    ("redirect", .option (redirect.map Redirect.outline))]

mutual

def Stmt.outline : Stmt → Outline
  | .block body => .node "Block" [("statements", .list (Stmt.outlines body))]
  | .expr e => .node "ExprStmt" [("expr", e.outline)]
  | .print args redirect => outputOutline "Print" args redirect
  | .printf format args redirect =>
      outputOutline "Printf" (format :: args) redirect
  | .ifElse condition yes no =>
      .node "If"
        [("condition", condition.outline), ("consequent", yes.outline),
         ("alternate", Stmt.outline? no)]
  | .whileLoop condition body =>
      .node "While" [("condition", condition.outline), ("body", body.outline)]
  | .doLoop body condition =>
      .node "DoWhile" [("body", body.outline), ("condition", condition.outline)]
  | .forLoop init condition update body =>
      .node "For"
        [("init", Expr.outline? init), ("condition", Expr.outline? condition),
         ("update", Expr.outline? update), ("body", body.outline)]
  | .forIn name array body =>
      .node "ForIn" [("variable", .text name), ("array", .text array),
        ("body", body.outline)]
  | .breakLoop => .leaf "Break"
  | .continueLoop => .leaf "Continue"
  | .nextRecord => .leaf "Next"
  | .nextFile => .leaf "NextFile"
  | .exit code => .node "Exit" [("code", Expr.outline? code)]
  | .returnValue value => .node "Return" [("value", Expr.outline? value)]
  | .delete array keys =>
      .node "Delete" [("array", .text array),
        ("key", .option (keys.map fun keys => .subscript (Expr.outlines keys)))]

def Stmt.outlines : List Stmt → List Outline
  | [] => []
  | s :: rest => s.outline :: Stmt.outlines rest

def Stmt.outline? : Option Stmt → Outline
  | none => .nothing
  | some s => s.outline

end

/-! ## Rules and programs -/

def Guard.outline : Guard → Outline
  | .regex pattern => .node "RegexPattern" [("pattern", .text pattern)]
  | .expr e => .node "ExprPattern" [("expression", e.outline)]

def Trigger.outline : Trigger → Outline
  | .begin => .leaf "BeginPattern"
  | .finish => .leaf "EndPattern"
  | .always => .nothing
  | .when guard => guard.outline
  | .range start stop =>
      .node "RangePattern" [("start", start.outline), ("end", stop.outline)]

def Rule.outline (r : Rule) : Outline :=
  .node "Rule" [("pattern", r.trigger.outline),
    ("action", (Stmt.block r.action).outline)]

def Function.outline (f : Function) : Outline :=
  .node "FunctionDef"
    [("name", .text f.name), ("params", .tuple (Outline.texts f.params)),
     ("body", (Stmt.block f.body).outline)]

def Program.outline (p : Program) : Outline :=
  .node "Program" [("rules", .list (p.rules.map Rule.outline)),
    ("functions", .list (p.functions.map Function.outline))]

end Awk
