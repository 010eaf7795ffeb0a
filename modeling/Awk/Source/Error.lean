import Awk.Source.Position
import Awk.Text.Word

/-!
What can be wrong with source text.

Where the grammar fails, the report shows what stands at the furthest place that
was reached.  All other faults are found in text that the grammar accepts.
-/

namespace Awk.Source

inductive Near where
  | endOfFile
  | endOfLine
  | token (text : String)
  deriving DecidableEq, Repr

inductive Cause where
  | unexpected (near : Near)
  | nestedTooDeeply
  | unterminatedString
  | unterminatedRegex
  | invalidTarget (op : String)
  | invalidOperand (op : String)
  | commandPipe
  | outputPipe
  | missingArguments (builtin : String)
  | missingFormat
  | redefinedBuiltin (name : String)
  | keywordAsFunction (name : String)
  | redefinedFunction (name : String)
  | duplicateParameter (name : String)
  | shadowingParameter (name : String)
  | specialParameter (name : String)
  deriving DecidableEq, Repr

structure SyntaxError where
  cause : Cause
  position : Option Position
  deriving DecidableEq, Repr

/-! ## Near a place -/

def isTokenChar (c : Char) : Bool := Text.isAsciiWord c || c == '.'

/-- The token a text starts with: a run of letters, digits and points, or else
one character. -/
def firstToken : List Char → List Char
  | [] => []
  | c :: rest => if isTokenChar c then c :: rest.takeWhile isTokenChar else [c]

def Near.ofRest (rest : List Char) : Near :=
  if rest.all Text.isSpace then .endOfFile
  else if (rest.dropWhile fun c => c == ' ' || c == '\t' || c == '\r').head? =
    some '\n' then .endOfLine
  else .token (String.ofList (firstToken (rest.dropWhile Text.isSpace)))

def SyntaxError.ofPosition (source : List Char) (p : Position) : SyntaxError :=
  ⟨.unexpected (Near.ofRest (source.drop (p.toOffset source))), some p⟩

/-! ## Wording -/

def ticked (word : String) : String := "\x60" ++ word ++ "'"

def Near.text : Near → String
  | .endOfFile => "end of file"
  | .endOfLine => "end of line"
  | .token text => ticked text

def atNear (near detail : String) : String :=
  "syntax error at or near " ++ near ++ ": " ++ detail

def Cause.message : Cause → String
  | .unexpected near => "syntax error at or near " ++ near.text
  | .nestedTooDeeply => "program is nested too deeply"
  | .unterminatedString => "unterminated string"
  | .unterminatedRegex => "unterminated regexp"
  | .invalidTarget op => atNear (ticked op) "invalid assignment target"
  | .invalidOperand op =>
      atNear (ticked op) "invalid operand for increment/decrement"
  | .commandPipe => atNear (ticked "|") "command pipes are not supported"
  | .outputPipe => atNear (ticked "|") "output pipes are not supported"
  | .missingArguments name =>
      atNear (ticked name) (ticked name ++ " requires arguments")
  | .missingFormat => atNear (ticked "printf") "printf requires a format"
  | .redefinedBuiltin name =>
      atNear (ticked name) ("cannot redefine built-in function " ++ ticked name)
  | .keywordAsFunction name => atNear (ticked name) "expected function name"
  | .redefinedFunction name =>
      atNear (ticked name) ("function " ++ ticked name ++ " previously defined")
  | .duplicateParameter name =>
      atNear (ticked name) ("duplicate parameter " ++ ticked name)
  | .shadowingParameter name =>
      atNear (ticked name) ("parameter " ++ ticked name ++
        " shadows the function name")
  | .specialParameter name =>
      atNear (ticked name) ("cannot use special variable " ++ ticked name ++
        " as a function parameter")

def SyntaxError.message (e : SyntaxError) : String := e.cause.message

end Awk.Source
