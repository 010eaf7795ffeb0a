import Awk.Config.Json
import Awk.Regex.Matcher
import Awk.Regex.Parser
import Awk.Text.Split

/-!
Settings as YAML: block and flow collections, quoted, plain and block scalars,
comments.

There are no anchors, tags, directives or further documents.  Words and numerals
that are not quoted stand for truth values, numbers and null as version 1.1 of
the format has it.
-/

namespace Awk.Config.Yaml

/-! ## Plain scalars -/

def fullMatch (pattern : Except Regex.PatternError Regex.Pattern) (s : String) :
    Bool :=
  match pattern with
  | .ok p => (p.matchAt? s.toList.toArray 0 false).isSome
  | .error _ => false

def integerPattern : Except Regex.PatternError Regex.Pattern :=
  Regex.Pattern.parse
    ("(?:[-+]?0b[0-1_]+|[-+]?0[0-7_]+|[-+]?(?:0|[1-9][0-9_]*)" ++
      "|[-+]?0x[0-9a-fA-F_]+|[-+]?[1-9][0-9_]*(?::[0-5]?[0-9])+)\\Z").toList

def realPattern : Except Regex.PatternError Regex.Pattern :=
  Regex.Pattern.parse
    ("(?:[-+]?(?:[0-9][0-9_]*)\\.[0-9_]*(?:[eE][-+][0-9]+)?" ++
      "|\\.[0-9][0-9_]*(?:[eE][-+][0-9]+)?" ++
      "|[-+]?[0-9][0-9_]*(?::[0-5]?[0-9])+\\.[0-9_]*)\\Z").toList

def splitSign : List Char → Bool × List Char
  | '-' :: rest => (true, rest)
  | '+' :: rest => (false, rest)
  | cs => (false, cs)

def radixValue (base : Nat) (ds : List Char) : Nat :=
  ds.foldl (fun total d => base * total + (Json.hexValue? d).getD 0) 0

def sixties (parts : List (List Char)) : Nat :=
  parts.foldl (fun total part => 60 * total + Text.digitsValue part) 0

def integerValue (s : String) : Int :=
  let (negative, ds) := splitSign (s.toList.filter (· != '_'))
  let n : Nat :=
    match ds with
    | ['0'] => 0
    | '0' :: 'b' :: rest => radixValue 2 rest
    | '0' :: 'x' :: rest => radixValue 16 rest
    | '0' :: rest => radixValue 8 rest
    | _ => sixties (Text.splitOn ':' ds)
  if negative then -(n : Int) else n

def realValue (s : String) : Number :=
  let (negative, ds) := splitSign (s.toList.filter (· != '_'))
  let x :=
    match (Text.splitOn ':' ds).reverse with
    | last :: (h :: hs) =>
        Number.ofNat (60 * sixties (h :: hs).reverse) +
          Number.ofText (String.ofList last)
    | _ => Number.ofText (String.ofList ds)
  if negative then -x else x

def truths : List String :=
  ["yes", "Yes", "YES", "true", "True", "TRUE", "on", "On", "ON"]

def falsehoods : List String :=
  ["no", "No", "NO", "false", "False", "FALSE", "off", "Off", "OFF"]

def nulls : List String := ["", "~", "null", "Null", "NULL"]

def infinities : List String :=
  [".inf", ".Inf", ".INF", "+.inf", "+.Inf", "+.INF"]

def negativeInfinities : List String := ["-.inf", "-.Inf", "-.INF"]

def notNumbers : List String := [".nan", ".NaN", ".NAN"]

/-- What a scalar without quotes stands for.  The words of the merge and the
default key stand for nothing. -/
def resolve (s : String) : Option Datum :=
  if truths.contains s then some (.flag true)
  else if falsehoods.contains s then some (.flag false)
  else if nulls.contains s then some .null
  else if infinities.contains s then some (.real Number.infinity)
  else if negativeInfinities.contains s
    then some (.real Number.negativeInfinity)
  else if notNumbers.contains s then some (.real (.nan false))
  else if s = "=" ∨ s = "<<" then none
  else if fullMatch realPattern s then some (.real (realValue s))
  else if fullMatch integerPattern s then some (.integer (integerValue s))
  else some (.text s)

/-! ## Quoted scalars -/

def escaped? : Char → Option Char
  | '0' => some '\x00'
  | 'a' => some '\x07'
  | 'b' => some '\x08'
  | 't' => some '\t'
  | '\t' => some '\t'
  | 'n' => some '\n'
  | 'v' => some '\x0b'
  | 'f' => some '\x0c'
  | 'r' => some '\r'
  | 'e' => some '\x1b'
  | ' ' => some ' '
  | '"' => some '"'
  | '\\' => some '\\'
  | '/' => some '/'
  | 'N' => some '\u0085'
  | '_' => some '\u00a0'
  | 'L' => some '\u2028'
  | 'P' => some '\u2029'
  | _ => none

def hexLength? : Char → Option Nat
  | 'x' => some 2
  | 'u' => some 4
  | 'U' => some 8
  | _ => none

def escape? : List Char → Option (Char × Nat)
  | [] => none
  | c :: rest =>
      match hexLength? c with
      | some n =>
          if rest.length < n then none
          else (Json.hexNumber? (rest.take n)).bind fun v =>
            if v.isValidChar then some (Char.ofNat v, n + 1) else none
      | none => (escaped? c).map (·, 1)

/-- The line breaks inside a quoted scalar: one stands for a space, more for all
but the first. -/
def foldBreaks (gap : List Char) : List Char :=
  let breaks := (gap.filter (· == '\n')).length
  if breaks = 1 then [' '] else List.replicate (breaks - 1) '\n'

def isGap (c : Char) : Bool := c == ' ' || c == '\t' || c == '\n'

def gapAt (cs : List Char) : List Char × Nat :=
  let gap := cs.takeWhile isGap
  (if gap.contains '\n' then foldBreaks gap else gap, gap.length)

def doubleQuoted : (skipped : Nat) → List Char → Option (List Char × List Char)
  | _, [] => none
  | n + 1, _ :: rest => doubleQuoted n rest
  | 0, c :: rest =>
      if c = '"' then some ([], rest)
      else if c = '\\' then
        match rest with
        | '\n' :: more => doubleQuoted (more.takeWhile isGap).length.succ rest
        | _ =>
            match escape? rest with
            | some (d, n) =>
                (doubleQuoted n rest).map fun (s, after) => (d :: s, after)
            | none => none
      else if isGap c then
        let (shown, n) := gapAt (c :: rest)
        (doubleQuoted (n - 1) rest).map fun (s, after) => (shown ++ s, after)
      else (doubleQuoted 0 rest).map fun (s, after) => (c :: s, after)

def singleQuoted : (skipped : Nat) → List Char → Option (List Char × List Char)
  | _, [] => none
  | n + 1, _ :: rest => singleQuoted n rest
  | 0, c :: rest =>
      if c = '\x27' then
        match rest with
        | '\x27' :: _ =>
            (singleQuoted 1 rest).map fun (s, after) => ('\x27' :: s, after)
        | _ => some ([], rest)
      else if isGap c then
        let (shown, n) := gapAt (c :: rest)
        (singleQuoted (n - 1) rest).map fun (s, after) => (shown ++ s, after)
      else (singleQuoted 0 rest).map fun (s, after) => (c :: s, after)

def quoted? (cs : List Char) : Option (String × List Char) :=
  let found :=
    match cs with
    | '"' :: rest => doubleQuoted 0 rest
    | '\x27' :: rest => singleQuoted 0 rest
    | _ => none
  found.map fun (s, rest) => (String.ofList s, rest)

def isQuote (c : Char) : Bool := c == '"' || c == '\x27'

/-! ## Plain text -/

def isFlowMark (c : Char) : Bool :=
  c == ',' || c == '[' || c == ']' || c == '\x7b' || c == '\x7d'

def isMark (c : Char) : Bool :=
  isFlowMark c || c == '#' || c == '&' || c == '*' || c == '!' || c == '|' ||
    c == '>' || isQuote c
    || c == '%' || c == '@' || c == '\x60'

/-- Whether a mark ends here: at the end of the line, at a blank, inside flow
collections at a flow mark. -/
def endsMark (flow : Bool) (rest : List Char) : Bool :=
  match rest.head? with
  | none => true
  | some c => isGap c || (flow && isFlowMark c)

def startsPlain (flow : Bool) (cs : List Char) : Bool :=
  match cs with
  | [] => false
  | c :: rest =>
      if isMark c || isGap c then false
      else if c == '-' then !endsMark false rest
      else if c == '?' || c == ':' then !endsMark false rest &&
        !(flow && c == '?')
      else true

def plainText (flow : Bool) (before : Char) : List Char → List Char × List Char
  | [] => ([], [])
  | c :: rest =>
      if c = '\n' ∨ c = '\t' then ([], c :: rest)
      else if c = ':' ∧ endsMark flow rest then ([], c :: rest)
      else if c = '#' ∧ before = ' ' then ([], c :: rest)
      else if flow && (isFlowMark c || c == '?') then ([], c :: rest)
      else
        let (text, after) := plainText flow c rest
        (c :: text, after)

def trimEnd (cs : List Char) : List Char :=
  (cs.reverse.dropWhile (· == ' ')).reverse

def skipSpaces (cs : List Char) : List Char := cs.dropWhile (· == ' ')

def isRestBlank (cs : List Char) : Bool :=
  match skipSpaces cs with
  | [] => true
  | '#' :: _ => true
  | _ => false

/-! ## Flow collections -/

def skipFlow : (fuel : Nat) → List Char → List Char
  | 0, cs => cs
  | fuel + 1, cs =>
      match cs.dropWhile fun c => c == ' ' || c == '\n' with
      | '#' :: rest => skipFlow fuel (rest.dropWhile (· != '\n'))
      | rest => rest

def skipAll (cs : List Char) : List Char := skipFlow cs.length cs

mutual

/-- A node inside a flow collection; nodes nest at most `fuel` deep. -/
def flowNode : (fuel : Nat) → List Char → Option (Datum × List Char)
  | 0, _ => none
  | fuel + 1, cs =>
      match cs with
      | '[' :: rest =>
          (flowItems fuel (skipAll rest)).map fun (ds, after) =>
            (.list ds, after)
      | '\x7b' :: rest =>
          (flowPairs fuel (skipAll rest)).map fun (entries, after) =>
            (Datum.ofPairs entries, after)
      | _ =>
          match quoted? cs with
          | some (s, rest) => some (.text s, rest)
          | none =>
              if startsPlain true cs then
                let (text, rest) := plainText true ' ' cs
                (resolve (String.ofList (trimEnd text))).map (·, rest)
              else none

def flowPair : (fuel : Nat) → List Char → Option ((Datum × Datum) × List Char)
  | 0, _ => none
  | fuel + 1, cs => do
      let (key, rest) ← flowNode fuel cs
      match skipAll rest with
      | ':' :: afterColon =>
          match skipAll afterColon with
          | ',' :: more => return ((key, .null), ',' :: more)
          | '\x7d' :: more => return ((key, .null), '\x7d' :: more)
          | ']' :: more => return ((key, .null), ']' :: more)
          | more =>
              let (d, after) ← flowNode fuel more
              return ((key, d), after)
      | more => return ((key, .null), more)

def flowPairs : (fuel : Nat) → List Char →
    Option (List (Datum × Datum) × List Char)
  | 0, _ => none
  | fuel + 1, cs =>
      match cs with
      | '\x7d' :: after => some ([], after)
      | _ => do
          let (pair, rest) ← flowPair fuel cs
          match skipAll rest with
          | ',' :: more =>
              let (pairs, after) ← flowPairs fuel (skipAll more)
              return (pair :: pairs, after)
          | '\x7d' :: after => return ([pair], after)
          | _ => none

def flowItems : (fuel : Nat) → List Char → Option (List Datum × List Char)
  | 0, _ => none
  | fuel + 1, cs =>
      match cs with
      | ']' :: after => some ([], after)
      | _ => do
          let (d, rest) ← flowNode fuel cs
          let (item, rest) ←
            match skipAll rest with
            | ':' :: _ =>
                (flowPair fuel cs).map fun (pair, after) =>
                  (Datum.mapping [pair], after)
            | more => some (d, more)
          match skipAll rest with
          | ',' :: more =>
              let (ds, after) ← flowItems fuel (skipAll more)
              return (item :: ds, after)
          | ']' :: after => return ([item], after)
          | _ => none

end

/-! ## Lines -/

structure Line where
  indent : Nat
  text : List Char
  deriving DecidableEq, Repr

def Line.of (cs : List Char) : Line :=
  let blanks := cs.takeWhile (· == ' ')
  ⟨blanks.length, cs.drop blanks.length⟩

def Line.isBlank (l : Line) : Bool := l.text.isEmpty

def Line.isComment (l : Line) : Bool := l.text.head? == some '#'

def content (lines : List Line) : List Line :=
  lines.dropWhile fun l => l.isBlank || l.isComment

def Line.item? (l : Line) : Option Line :=
  match l.text with
  | ['-'] => some ⟨l.indent + 1, []⟩
  | '-' :: ' ' :: rest =>
      let inner := Line.of rest
      some ⟨l.indent + 2 + inner.indent, inner.text⟩
  | _ => none

def splitKey (cs : List Char) : Option (Datum × List Char) :=
  match quoted? cs with
  | some (s, rest) =>
      match skipSpaces rest with
      | ':' :: value =>
          if endsMark false value then some (.text s, value) else none
      | _ => none
  | none =>
      if startsPlain false cs then
        match plainText false ' ' cs with
        | (key, ':' :: value) =>
            (resolve (String.ofList (trimEnd key))).map (·, value)
        | _ => none
      else none

def joinLines (text : List Char) (lines : List Line) : List Char :=
  text ++ lines.flatMap fun l => '\n' :: (List.replicate l.indent ' ' ++ l.text)

def linesBehind (lines : List Line) (rest : List Char) : Option (List Line) :=
  let current := rest.takeWhile (· != '\n')
  let left := (rest.filter (· == '\n')).length
  if isRestBlank current then some (lines.drop (lines.length - left)) else none

/-! ## Scalars over several lines -/

/-- More lines of a plain scalar, deeper than `parent`; `blankLines` blank lines
came before. -/
def plainMore (parent : Int) : (blankLines : Nat) → List Line →
    Option (List Char × List Line)
  | n, l :: rest =>
      if l.isBlank then
        match plainMore parent (n + 1) rest with
        | some ([], _) => some ([], l :: rest)
        | found => found
      else if (l.indent : Int) ≤ parent ∨ l.isComment then some ([], l :: rest)
      else
        match plainText false ' ' l.text with
        | (text, []) =>
            (plainMore parent 0 rest).map fun (more, after) =>
              ((if n = 0 then [' '] else List.replicate n '\n') ++
                trimEnd text ++ more, after)
        | (text, '#' :: _) =>
            some ((if n = 0 then [' '] else List.replicate n '\n') ++
              trimEnd text, rest)
        | _ => none
  | _, [] => some ([], [])

def plainScalar (parent : Int) (cs : List Char) (rest : List Line) :
    Option (Datum × List Line) :=
  match plainText false ' ' cs with
  | (text, []) => do
      let (more, after) ← plainMore parent 0 rest
      let d ← resolve (String.ofList (trimEnd text ++ more))
      return (d, after)
  | (text, '#' :: _) => (resolve (String.ofList (trimEnd text))).map (·, rest)
  | _ => none

inductive Chomp where
  | clip
  | strip
  | keep
  deriving DecidableEq, Repr

def blockHeader : List Char → Option (Option Nat × Chomp)
  | cs =>
      let marks := cs.takeWhile fun c => !(c == ' ')
      if !isRestBlank (cs.drop marks.length) then none
      else
        match marks with
        | [] => some (none, .clip)
        | ['-'] => some (none, .strip)
        | ['+'] => some (none, .keep)
        | [d] =>
            if '1' ≤ d ∧ d ≤ '9' then some (some (d.toNat - '0'.toNat), .clip)
              else none
        | [d, m] =>
            let chomp := if m = '-' ∨ d = '-' then Chomp.strip else .keep
            let digit := if d = '-' ∨ d = '+' then m else d
            if '1' ≤ digit ∧ digit ≤ '9'
              then some (some (digit.toNat - '0'.toNat), chomp) else none
        | _ => none

def blockLines (indent : Nat) : List Line → List (List Char) × List Line
  | [] => ([], [])
  | l :: rest =>
      if l.isBlank ∨ indent ≤ l.indent then
        let (texts, after) := blockLines indent rest
        ((List.replicate (l.indent - indent) ' ' ++ l.text) :: texts, after)
      else ([], l :: rest)

def isSpaced (l : List Char) : Bool :=
  l.head? == some ' ' || l.head? == some '\t'

/-- Lines joined; in folded scalars single line ends between plain lines become
spaces. -/
def joinBlock (folded : Bool) : List (List Char) → List Char
  | [] => []
  | [l] => l
  | l :: next :: rest =>
      let after := joinBlock folded (next :: rest)
      if folded && !l.isEmpty && !isSpaced l && !next.isEmpty &&
        !isSpaced next then l ++ ' ' :: after
      else if folded && !l.isEmpty && !isSpaced l &&
        next.isEmpty then l ++ after
      else l ++ '\n' :: after

def blockScalar (folded : Bool) (parent : Int) (header : List Char)
    (rest : List Line) :
    Option (Datum × List Line) := do
  let (given, chomp) ← blockHeader header
  let least := (parent + 1).toNat
  let indent :=
    match given with
    | some n => least + n - 1
    | none =>
        match rest.dropWhile Line.isBlank with
        | l :: _ => max least l.indent
        | [] => least
  let (texts, after) := blockLines indent rest
  let kept := (texts.reverse.dropWhile List.isEmpty).reverse
  let ended := !after.isEmpty || texts.length > kept.length
  let tail :=
    match chomp with
    | .strip => []
    | .clip => if kept.isEmpty || !ended then [] else ['\n']
    | .keep =>
        List.replicate (texts.length - kept.length + if after.isEmpty then 0
          else 1) '\n'
  return (.text (String.ofList (joinBlock folded kept ++ tail)), after)

/-! ## Nodes -/

def inlineNode (parent : Int) (cs : List Char) (rest : List Line) :
    Option (Datum × List Line) :=
  match cs with
  | '|' :: header => blockScalar false parent header rest
  | '>' :: header => blockScalar true parent header rest
  | _ =>
      let joined := joinLines cs rest
      match cs.head? with
      | some c =>
          if isQuote c then do
            let (s, left) ← quoted? joined
            return (.text s, ← linesBehind rest left)
          else if c == '[' || c == '\x7b' then do
            let (d, left) ← flowNode (2 * joined.length + 1) joined
            return (d, ← linesBehind rest left)
          else if startsPlain false cs then plainScalar parent cs rest
          else none
      | none => none

mutual

/-- The block that starts with the first line; it belongs to a block indented by
`parent`. -/
def block : (fuel : Nat) → (parent : Int) → List Line →
    Option (Datum × List Line)
  | 0, _, _ => none
  | _, _, [] => none
  | fuel + 1, parent, l :: rest =>
      if l.item?.isSome then
        (listItems fuel l.indent (l :: rest)).map fun (ds, after) =>
          (.list ds, after)
      else if (splitKey l.text).isSome then
        (mapPairs fuel l.indent (l :: rest)).map fun (pairs, after) =>
          (Datum.ofPairs pairs, after)
      else inlineNode parent l.text rest

def listItems : (fuel : Nat) → (indent : Nat) → List Line →
    Option (List Datum × List Line)
  | 0, _, _ => none
  | fuel + 1, indent, lines =>
      match content lines with
      | [] => some ([], [])
      | l :: rest =>
          if l.indent < indent then some ([], l :: rest)
          else if indent < l.indent then none
          else
            match l.item? with
            | none => some ([], l :: rest)
            | some item => do
                let (d, after) ←
                  if item.text.isEmpty || item.isComment then
                    match content rest with
                    | next :: more =>
                        if indent < next.indent
                          then block fuel indent (next :: more)
                        else some (.null, next :: more)
                    | [] => some (.null, [])
                  else block fuel indent (item :: rest)
                let (ds, after) ← listItems fuel indent after
                return (d :: ds, after)

def mapPairs : (fuel : Nat) → (indent : Nat) → List Line →
    Option (List (Datum × Datum) × List Line)
  | 0, _, _ => none
  | fuel + 1, indent, lines =>
      match content lines with
      | [] => some ([], [])
      | l :: rest =>
          if l.indent < indent then some ([], l :: rest)
          else if indent < l.indent then none
          else do
            let (key, value) ← splitKey l.text
            let (d, after) ←
              if isRestBlank value then
                match content rest with
                | next :: more =>
                    if indent < next.indent ∨
                      (next.indent = indent ∧ next.item?.isSome) then
                      block fuel indent (next :: more)
                    else some (.null, next :: more)
                | [] => some (.null, [])
              else inlineNode indent (skipSpaces value) rest
            let (pairs, after) ← mapPairs fuel indent after
            return ((key, d) :: pairs, after)

end

/-! ## Documents -/

def isStart (l : Line) : Bool := l.indent == 0 &&
    l.text.take 3 == ['-', '-', '-'] && isRestBlank (l.text.drop 3)

def isEnd (l : Line) : Bool := l.indent == 0 && l.text == ['.', '.', '.']

def linesOf (source : String) : List Line :=
  (Text.splitOn '\n' source.toList).map Line.of

def parse (source : String) : Option Datum :=
  let lines := (linesOf source).takeWhile fun l => !isEnd l
  let body :=
    match content lines with
    | l :: rest => if isStart l then content rest else l :: rest
    | [] => []
  match body with
  | [] => some .null
  | l :: rest => do
      let (d, after) ← block (2 * source.length + 2) (-1) (l :: rest)
      if (content after).isEmpty then some d else none

end Awk.Config.Yaml
