import Awk.Regex.Parser

/-!
Patterns as programs write them.

Programs use bracket expressions with named classes and a few anchors of their
own.  `respell` respells them for `Pattern.parse`: named classes become ranges,
a bracket that is a member is escaped, and the anchors become the ones the
reader knows.
-/

namespace Awk.Regex

def namedClass? : String → Option String
  | "alpha" => some "a-zA-Z"
  | "digit" => some "0-9"
  | "alnum" => some "a-zA-Z0-9"
  | "upper" => some "A-Z"
  | "lower" => some "a-z"
  | "space" => some " \\t\\n\\r\\f\\v"
  | "blank" => some " \\t"
  | "punct" => some "!-/:-@\\[-`\x7b-~"
  | "print" => some " -~"
  | "graph" => some "!-~"
  | "cntrl" => some "\\x00-\\x1f\\x7f"
  | "xdigit" => some "0-9A-Fa-f"
  | "word" => some "a-zA-Z0-9_"
  | _ => none

def splitAtClassEnd : List Char → Option (List Char × List Char)
  | [] => none
  | ':' :: ']' :: rest => some ([], rest)
  | c :: rest =>
      (splitAtClassEnd rest).map fun (name, after) => (c :: name, after)

def classAtFront? (cs : List Char) : Option (List Char × List Char) :=
  match splitAtClassEnd cs with
  | none => none
  | some (name, after) =>
      (namedClass? (String.ofList name)).map fun body => (body.toList, after)

/-- The members of a bracket expression up to and including the closing bracket,
respelled, and the text after it. -/
def respellMembers : Nat → List Char → List Char × List Char
  | 0, cs => ([], cs)
  | _ + 1, [] => ([], [])
  | fuel + 1, c :: rest =>
      let go (out : List Char) (after : List Char) : List Char × List Char :=
        let (more, final) := respellMembers fuel after
        (out ++ more, final)
      match c, rest with
      | ']', _ => ([']'], rest)
      | '[', ':' :: after =>
          match classAtFront? after with
          | some (body, afterClass) => go body afterClass
          | none => go ['\\', '['] rest
      | '\\', d :: after => go ['\\', d] after
      | '[', _ => go ['\\', '['] rest
      | _, _ => go [c] rest

/-- A bracket expression behind its opening bracket.  A closing bracket that
comes first is a member. -/
def respellBracket (cs : List Char) : List Char × List Char :=
  let (hat, cs) : List Char × List Char :=
    match cs with
    | '^' :: rest => (['^'], rest)
    | _ => ([], cs)
  let (first, cs) : List Char × List Char :=
    match cs with
    | ']' :: rest => (['\\', ']'], rest)
    | _ => ([], cs)
  let (members, after) := respellMembers (cs.length + 1) cs
  ('[' :: hat ++ first ++ members, after)

def respellEscape : Char → List Char
  | 'y' | '<' | '>' => ['\\', 'b']
  | '\x60' => ['\\', 'A']
  | '\x27' => ['\\', 'Z']
  | c => ['\\', c]

def respellFrom : Nat → List Char → List Char
  | 0, _ => []
  | _ + 1, [] => []
  | fuel + 1, c :: rest =>
      match c, rest with
      | '[', _ =>
          let (out, after) := respellBracket rest
          out ++ respellFrom fuel after
      | '\\', d :: after => respellEscape d ++ respellFrom fuel after
      | _, _ => c :: respellFrom fuel rest

def respell (cs : List Char) : List Char := respellFrom (cs.length + 1) cs

def compileWith (flags : Flags) (text : String) : Except PatternError Pattern :=
  Pattern.parse (respell text.toList) flags

/-- The pattern a text of a program spells. -/
def compile (text : String) : Except PatternError Pattern := compileWith {} text

end Awk.Regex
