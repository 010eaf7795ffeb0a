import Awk.Number.Numeral
import Awk.Regex.Matcher
import Awk.Regex.Parser
import Awk.Source.Parser
import Awk.Text.Split

/-!
Tokens, and the gaps between them.

A gap is blanks, continued lines and comments.  There are three strengths of it:
one that stays on the line, one that crosses newlines, and one that passes
semicolons too.
-/

namespace Awk.Source

open Awk.Source.Parser (Scanner token require)

/-! ## Gaps -/

inductive Gap where
  | line
  | lines
  | terms
  deriving DecidableEq, Repr

def Gap.contains (g : Gap) (c : Char) : Bool :=
  c == ' ' || c == '\t' || c == '\r' || (c == '\n' && g != .line) ||
    (c == ';' && g == .terms)

/-- How many characters a gap takes; `comment` tells that a comment is being
passed. -/
def Gap.length (g : Gap) : (comment : Bool) → List Char → Nat
  | true, '\n' :: rest => if g.contains '\n' then g.length false rest + 1 else 0
  | true, _ :: rest => g.length true rest + 1
  | false, '\\' :: '\n' :: rest => g.length false rest + 2
  | false, '\\' :: '\r' :: '\n' :: rest => g.length false rest + 3
  | false, c :: rest =>
      if c = '#' then g.length true rest + 1
      else if g.contains c then g.length false rest + 1
      else 0
  | _, [] => 0

def gap (g : Gap) : Parser Unit := fun c =>
  ⟨.found () (c.drop (g.length false c.rest)), 0⟩

def blank : Parser Unit := gap .line

def newlines : Parser Unit := gap .lines

def terms : Parser Unit := gap .terms

/-! ## Words -/

def isNameStart (c : Char) : Bool := Text.isAsciiWord c && !Text.isAsciiDigit c

def wordRun (cs : List Char) : List Char := cs.takeWhile Text.isAsciiWord

def endsWord (cs : List Char) : Bool :=
  match (cs.dropWhile Text.isAsciiWord).head? with
  | some c => !Text.isWord c
  | none => true

def scanWord (words : List String) : Scanner := fun cs =>
  let run := wordRun cs
  if words.contains (String.ofList run) && endsWord cs then some run.length
    else none

def scanName : Scanner := fun cs =>
  match cs.head? with
  | some c => if isNameStart c then some (wordRun cs).length else none
  | none => none

def scanFreeName : Scanner := fun cs =>
  if (scanWord (keywords ++ builtinNames) cs).isSome then none else scanName cs

def keyword (word : String) : Parser Word := token (scanWord [word])

def name : Parser Word := token scanFreeName

def builtinName : Parser Word := token (scanWord builtinNames)

/-! ## Operators -/

/-- An operator: the text it is written as, characters that may not follow it,
and what it means. -/
structure Operator (α : Type) where
  text : String
  notBefore : List Char
  meaning : α
  deriving DecidableEq, Repr

def Operator.scan {α : Type} (op : Operator α) : Scanner := fun cs =>
  match Text.dropFront? op.text.toList cs with
  | some rest =>
      match rest.head? with
      | some c => if op.notBefore.contains c then none else some op.text.length
      | none => some op.text.length
  | none => none

def operator {α : Type} (ops : List (Operator α)) :
    Parser (α × Word) := fun c =>
  match ops.find? fun op => (op.scan c.rest).isSome with
  | some op =>
      ⟨.found (op.meaning, ⟨op.text, c.offset⟩) (c.drop op.text.length), 0⟩
  | none => ⟨.missed, c.offset⟩

def symbolNotBefore (text : String) (notBefore : List Char) : Parser Unit := do
  let _ ← operator [⟨text, notBefore, ()⟩]

def symbol (text : String) : Parser Unit := symbolNotBefore text []

def assignOps : List (Operator (Option Arithmetic)) :=
  [⟨"**=", [], some .pow⟩, ⟨"-=", [], some .sub⟩, ⟨"+=", [], some .add⟩,
    ⟨"*=", [], some .mul⟩, ⟨"/=", [], some .div⟩, ⟨"%=", [], some .mod⟩,
    ⟨"^=", [], some .pow⟩, ⟨"=", ['='], none⟩]

def matchOps : List (Operator BinaryOp) :=
  [⟨"!~", [], .matching true⟩, ⟨"~", [], .matching false⟩]

/-- Comparisons; in print arguments `>` redirects instead. -/
def compareOps (greater : Bool) : List (Operator BinaryOp) :=
  [⟨"<=", [], .comparison .le⟩, ⟨">=", [], .comparison .ge⟩,
    ⟨"==", [], .comparison .eq⟩, ⟨"!=", [], .comparison .ne⟩,
    ⟨"<", [], .comparison .lt⟩] ++ if greater then [⟨">", [], .comparison .gt⟩]
    else []

def addOps : List (Operator BinaryOp) :=
  [⟨"+", ['+', '='], .arithmetic .add⟩, ⟨"-", ['-', '='], .arithmetic .sub⟩]

def mulOps : List (Operator BinaryOp) :=
  [⟨"*", ['*', '='], .arithmetic .mul⟩, ⟨"/", ['='], .arithmetic .div⟩,
   ⟨"%", ['='], .arithmetic .mod⟩]

def powerOps : List (Operator BinaryOp) :=
  [⟨"^", ['='], .arithmetic .pow⟩, ⟨"**", ['='], .arithmetic .pow⟩]

def unaryOps : List (Operator UnaryOp) :=
  [⟨"!", ['=', '~'], .not⟩, ⟨"-", ['-'], .minus⟩, ⟨"+", ['+'], .plus⟩]

def stepOps : List (Operator Bool) := [⟨"++", [], true⟩, ⟨"--", [], false⟩]

def redirectOps : List (Operator Channel) :=
  [⟨">>", [], .append⟩, ⟨">", [], .truncate⟩, ⟨"|", [], .pipe⟩]

def leadingOps : List (Operator Unit) :=
  [⟨"!", [], ()⟩, ⟨"/", [], ()⟩, ⟨"-", ['-'], ()⟩, ⟨"+", ['+'], ()⟩]

/-- What the right operand of an implicit concatenation may not start with. -/
def startsOperator (cs : List Char) : Bool :=
  leadingOps.any (fun op => (op.scan cs).isSome) ||
    (scanWord ["in", "getline"] cs).isSome

/-! ## Literals -/

def scanNumber : Scanner := fun cs =>
  (Numeral.scanUnsigned cs).map fun (n, _) => n.text.length

def number : Parser Word := token scanNumber

def stringBodyLength : List Char → Nat
  | [] => 0
  | '\\' :: _ :: rest => stringBodyLength rest + 2
  | c :: rest =>
      if c = '"' ∨ c = '\n' ∨ c = '\\' then 0 else stringBodyLength rest + 1

def scanString : Scanner
  | '"' :: rest =>
      let n := stringBodyLength rest
      if (rest.drop n).head? = some '"' then some (n + 2) else none
  | _ => none

def scanOpenString : Scanner
  | '"' :: rest => some (stringBodyLength rest + 1)
  | _ => none

/-- The text before the closing slash of a pattern: plain characters, escapes,
and bracket expressions, in which a slash is a member like any other. -/
def regexBody : String :=
  "/(?:[^/\\\\\\[\n]|\\\\[^\n]" ++
    "|\\[\\^?\\]?(?:\\[:[A-Za-z]+:\\]|\\\\[^\n]|[^\\]\n])*\\])*"

def scanPattern (pattern : Except Regex.PatternError Regex.Pattern) :
    Scanner := fun cs =>
  match pattern, cs.head? with
  | .ok p, some '/' =>
      (p.matchAt? (cs.takeWhile (· != '\n')).toArray 0 false).map fun m =>
        m.whole.stop
  | _, _ => none

def regexToken : Except Regex.PatternError Regex.Pattern :=
  Regex.Pattern.parse (regexBody ++ "/").toList

def openRegexToken : Except Regex.PatternError Regex.Pattern :=
  Regex.Pattern.parse regexBody.toList

def scanRegex : Scanner := scanPattern regexToken

def scanOpenRegex : Scanner := scanPattern openRegexToken

def Word.body (w : Word) : String := String.ofList (w.text.toList.tail.dropLast)

/-! ## Ends -/

def atStatementEnd (cs : List Char) : Bool :=
  match cs.head? with
  | none => true
  | some c => c == '\n' || c == ';' || c == '\x7d'

def atRuleEnd (cs : List Char) : Bool :=
  match cs.head? with
  | none => true
  | some c => c == '\n' || c == ';'

def statementEnd : Parser Unit := require atStatementEnd

def ruleEnd : Parser Unit := require atRuleEnd

def endOfFile : Parser Unit := require List.isEmpty

end Awk.Source
