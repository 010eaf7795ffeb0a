import Awk.Regex.Basic
import Awk.Text.Integer

/-!
Reading patterns.

The text is read token by token, a token being a character or a backslash with
the character after it. Recursion is bounded by the length of the text, since
every nested part takes at least one token. Problems that only show in the
finished tree, such as a look behind of no fixed width, are noted on the way and
reported last.
-/

namespace Awk.Regex

inductive Token where
  | plain (c : Char)
  | escaped (c : Char)
  deriving DecidableEq, Repr

structure Source where
  next : Option Token
  rest : List Char
  deriving DecidableEq, Repr

def Source.load : List Char → Except PatternError Source
  | [] => .ok ⟨none, []⟩
  | ['\\'] => .error .malformed
  | '\\' :: c :: rest => .ok ⟨some (.escaped c), rest⟩
  | c :: rest => .ok ⟨some (.plain c), rest⟩

structure Flags where
  ignoreCase : Bool := false
  multiline : Bool := false
  dotAll : Bool := false
  verbose : Bool := false
  ascii : Bool := false
  unicode : Bool := false
  template : Bool := false
  deriving DecidableEq, Repr, Hashable

namespace Flags

def or (f g : Flags) : Flags :=
  ⟨f.ignoreCase || g.ignoreCase, f.multiline || g.multiline, f.dotAll ||
    g.dotAll, f.verbose || g.verbose, f.ascii || g.ascii, f.unicode ||
    g.unicode, f.template || g.template⟩

def and (f g : Flags) : Flags :=
  ⟨f.ignoreCase && g.ignoreCase, f.multiline && g.multiline, f.dotAll &&
    g.dotAll, f.verbose && g.verbose, f.ascii && g.ascii, f.unicode &&
    g.unicode, f.template && g.template⟩

def minus (f g : Flags) : Flags :=
  ⟨f.ignoreCase && !g.ignoreCase, f.multiline && !g.multiline, f.dotAll &&
    !g.dotAll, f.verbose && !g.verbose, f.ascii && !g.ascii, f.unicode &&
    !g.unicode, f.template && !g.template⟩

def hasKind (f : Flags) : Bool := f.ascii || f.unicode

def ofLetter? : Char → Option Flags
  | 'i' => some { ignoreCase := true }
  | 'm' => some { multiline := true }
  | 's' => some { dotAll := true }
  | 'x' => some { verbose := true }
  | 'a' => some { ascii := true }
  | 'u' => some { unicode := true }
  | 't' => some { template := true }
  | _ => none

def within (f add del : Flags) : Flags :=
  let base := if add.hasKind then { f with ascii := false, unicode := false }
    else f
  (base.or add).minus del

def folding (f : Flags) : Folding :=
  if !f.ignoreCase then .exact else if f.ascii then .ascii else .unicode

end Flags

/-- What is known while a pattern is read. -/
structure Reading where
  source : Source
  widths : Array (Option (Nat × Nat)) := #[none]
  names : List (String × Nat) := []
  behind : Option Nat := none
  conditions : List Nat := []
  flags : Flags := {}
  repeats : Bool := false
  flawed : Bool := false
  deriving Repr

abbrev Read := StateT Reading (Except PatternError)

namespace Read

def fail {α : Type} : Read α := throw .malformed

def peek : Read (Option Token) := return (← get).source.next

def advance : Read Unit := do
  let source ← Source.load (← get).source.rest
  modify fun r => { r with source := source }

def next : Read (Option Token) := do
  let token ← peek
  if token.isSome then advance
  return token

def accept (c : Char) : Read Bool := do
  if (← peek) == some (.plain c) then
    advance
    return true
  else
    return false

def takeWhile (p : Char → Bool) : Nat → Read (List Char)
  | 0 => return []
  | n + 1 => do
      match ← peek with
      | some (.plain c) =>
          if p c then
            advance
            return c :: (← takeWhile p n)
          else return []
      | _ => return []

def untilChar (stop : Char) : Nat → List Char → Read (List Char)
  | 0, _ => fail
  | n + 1, acc => do
      match ← next with
      | none => fail
      | some (.plain c) =>
          if c == stop then (if acc.isEmpty then fail else return acc.reverse)
          else untilChar stop n (c :: acc)
      | some (.escaped c) => untilChar stop n (c :: '\\' :: acc)

def skipPast (stop : Char) : Nat → Read Bool
  | 0 => return false
  | n + 1 => do
      match ← next with
      | none => return false
      | some token =>
          if token == .plain stop then return true else skipPast stop n

def room : Read Nat := return (← get).source.rest.length + 2

end Read

/-! ## Escapes -/

def isHexDigit (c : Char) : Bool :=
  Text.isAsciiDigit c || ('a' ≤ c && c ≤ 'f') || ('A' ≤ c && c ≤ 'F')

def isOctalDigit (c : Char) : Bool := '0' ≤ c && c ≤ '7'

def isAsciiLetter (c : Char) : Bool :=
  ('a' ≤ c && c ≤ 'z') || ('A' ≤ c && c ≤ 'Z')

def hexValue (c : Char) : Nat :=
  if Text.isAsciiDigit c then c.toNat - 48
  else if 'a' ≤ c then c.toNat - 87 else c.toNat - 55

def valueIn (base : Nat) (ds : List Char) : Nat :=
  ds.foldl (fun n c => base * n + hexValue c) 0

def readHex (n : Nat) : Read Nat := do
  let ds ← Read.takeWhile isHexDigit n
  if ds.length = n then return valueIn 16 ds else Read.fail

def readCodePoint (n : Nat) : Read Nat := do
  let value ← readHex n
  if value < 0x110000 then return value else Read.fail

def readOctal (first : Char) : Read Nat := do
  let ds ← Read.takeWhile isOctalDigit 2
  return valueIn 8 (first :: ds)

def controlChar? : Char → Option Nat
  | 'a' => some 7
  | 'f' => some 12
  | 'n' => some 10
  | 'r' => some 13
  | 't' => some 9
  | 'v' => some 11
  | '\\' => some 92
  | _ => none

def classOf? : Char → Option Member
  | 'd' => some (.category .digit false)
  | 'D' => some (.category .digit true)
  | 's' => some (.category .space false)
  | 'S' => some (.category .space true)
  | 'w' => some (.category .word false)
  | 'W' => some (.category .word true)
  | _ => none

def readMemberEscape (c : Char) : Read Member :=
  if c == 'b' then return .char 8
  else
    match controlChar? c, classOf? c with
    | some n, _ => return .char n
    | none, some m => return m
    | none, none =>
        match c with
        | 'x' => return .char (← readHex 2)
        | 'u' => return .char (← readHex 4)
        | 'U' => return .char (← readCodePoint 8)
        | _ =>
            if isOctalDigit c then do
              let n ← readOctal c
              if n > 0o377 then Read.fail else return .char n
            else if Text.isAsciiDigit c || isAsciiLetter c then Read.fail
            else return .char c.toNat

/-- Refuse a group that is open, or that belongs to the look behind being
read. -/
def checkBehind (index : Nat) : Read Unit := do
  let r ← get
  match r.behind with
  | none => return
  | some bound =>
      if ((r.widths[index]?).join).isNone || bound ≤ index then Read.fail

def readBackref (index : Nat) (flags : Flags) : Read Node := do
  if (((← get).widths[index]?).join).isNone then Read.fail
  checkBehind index
  return .backref index flags.folding

def literal (flags : Flags) (n : Nat) : Node :=
  .chars (.single n flags.folding flags.ascii)

/-- Digits behind a backslash: three octal digits are a character, anything else
a group. -/
def readNumberEscape (first : Char) (flags : Flags) : Read Node := do
  match ← Read.takeWhile Text.isAsciiDigit 1 with
  | [second] =>
      if isOctalDigit first && isOctalDigit second then
        match ← Read.takeWhile isOctalDigit 1 with
        | [third] =>
            let n := valueIn 8 [first, second, third]
            if n > 0o377 then Read.fail else return literal flags n
        | _ => readBackref (valueIn 10 [first, second]) flags
      else readBackref (valueIn 10 [first, second]) flags
  | _ => readBackref (valueIn 10 [first]) flags

def readEscape (c : Char) (flags : Flags) : Read Node :=
  match c with
  | 'A' => return .anchor .textStart
  | 'Z' => return .anchor .textEnd
  | 'b' => return .anchor (.wordEdge false flags.ascii)
  | 'B' => return .anchor (.wordEdge true flags.ascii)
  | 'x' => return literal flags (← readHex 2)
  | 'u' => return literal flags (← readHex 4)
  | 'U' => return literal flags (← readCodePoint 8)
  | '0' => return literal flags (← readOctal '0')
  | _ =>
      match classOf? c, controlChar? c with
      | some m, _ => return .chars ⟨false, [m], flags.folding, flags.ascii⟩
      | none, some n => return literal flags n
      | none, none =>
          if Text.isAsciiDigit c then readNumberEscape c flags
          else if isAsciiLetter c then Read.fail
          else return literal flags c.toNat

/-! ## Brackets -/

def readMember : Token → Read Member
  | .escaped c => readMemberEscape c
  | .plain c => return .char c.toNat

/-- The members up to the closing bracket, which is a member when it comes
first. -/
def readMembers : Nat → List Member → Read (List Member)
  | 0, _ => Read.fail
  | fuel + 1, acc => do
      match ← Read.next with
      | none => Read.fail
      | some token =>
          if token == .plain ']' && !acc.isEmpty then return acc.reverse
          let first ← readMember token
          if ← Read.accept '-' then
            match ← Read.next with
            | none => Read.fail
            | some (.plain ']') => return (.char 0x2d :: first :: acc).reverse
            | some token' =>
                match first, ← readMember token' with
                | .char lo, .char hi =>
                    if hi < lo then Read.fail
                      else readMembers fuel (.range lo hi :: acc)
                | _, _ => Read.fail
          else readMembers fuel (first :: acc)

def readSet (flags : Flags) : Read Node := do
  let negated ← Read.accept '^'
  let members ← readMembers (← Read.room) []
  return .chars ⟨negated, members.eraseDups, flags.folding, flags.ascii⟩

/-! ## Repetition -/

def maxRepeat : Nat := 4294967295

def readCount (ds : List Char) : Read Nat := do
  if Text.digitLimit < ds.length then throw (.tooManyDigits ds.length)
  let n := valueIn 10 ds
  if n ≥ maxRepeat then throw .repeatTooLarge
  return n

/-- A counted repetition behind its opening brace; `none` if the brace stands
for itself. -/
def readCounts : Read (Option (Nat × Option Nat)) := do
  let before := (← get).source
  if (← Read.peek) == some (.plain '}') then return none
  let lo ← Read.takeWhile Text.isAsciiDigit (← Read.room)
  let hi ←
    if ← Read.accept ',' then
      Read.takeWhile Text.isAsciiDigit (← Read.room)
    else pure lo
  if ← Read.accept '}' then
    let least ← readCount lo
    if hi.isEmpty then return some (least, none)
    let most ← readCount hi
    if most < least then Read.fail
    return some (least, some most)
  else
    modify fun r => { r with source := before }
    return none

structure Item where
  node : Node
  repeatable : Bool
  deriving Repr

def repeatLast (least : Nat) (most : Option Nat) : List Item → Read (List Item)
  | [] => Read.fail
  | item :: rest => do
      if !item.repeatable then Read.fail
      let greed ←
        if ← Read.accept '?' then pure .lazy
        else if ← Read.accept '+' then pure .possessive
        else pure Greed.greedy
      modify fun r => { r with repeats := true }
      return ⟨.repeat greed least most item.node, false⟩ :: rest

/-! ## Inline flags -/

def flagOf? : Token → Option Flags
  | .plain c => Flags.ofLetter? c
  | .escaped _ => none

def readAdded : Nat → Flags → Token → Read (Flags × Char)
  | 0, _, _ => Read.fail
  | fuel + 1, acc, token => do
      match flagOf? token with
      | none => Read.fail
      | some flag =>
          let acc := acc.or flag
          if flag.hasKind && acc.ascii && acc.unicode then Read.fail
          match ← Read.next with
          | none => Read.fail
          | some token' =>
              match token' with
              | .plain ')' => return (acc, ')')
              | .plain '-' => return (acc, '-')
              | .plain ':' => return (acc, ':')
              | _ => readAdded fuel acc token'

def readRemoved : Nat → Flags → Read Flags
  | 0, _ => Read.fail
  | fuel + 1, acc => do
      match ← Read.next with
      | none => Read.fail
      | some token =>
          match flagOf? token with
          | none => Read.fail
          | some flag =>
              if flag.hasKind then Read.fail
              let acc := acc.or flag
              if ← Read.accept ':' then return acc else readRemoved fuel acc

/-- Flags behind `(?`; `none` when they hold for the whole pattern. -/
def readFlags (token : Token) : Read (Option (Flags × Flags)) := do
  let room ← Read.room
  let (add, stop) ←
    if token == .plain '-' then pure (({} : Flags), '-')
      else readAdded room {} token
  if stop == ')' then
    modify fun r => { r with flags := r.flags.or add }
    return none
  if add.template then Read.fail
  let del ← if stop == '-' then readRemoved room {} else pure {}
  if del.template || add.and del != {} then Read.fail
  return some (add, del)

/-! ## Groups -/

def isGroupName (cs : List Char) : Bool :=
  match cs with
  | [] => false
  | c :: rest => Text.isWord c && !Text.isDigit c && rest.all Text.isWord

def openGroup (name : Option String) : Read Nat := do
  let r ← get
  let index := r.widths.size
  match name with
  | none => set { r with widths := r.widths.push none }
  | some n =>
      if (r.names.lookup n).isSome then Read.fail
      set { r with widths := r.widths.push none,
                   names := (n, index) :: r.names }
  return index

def widthOf (node : Node) : Read (Nat × Nat) := do
  let r ← get
  return node.width fun i => ((r.widths[i]?).join).getD (0, 0)

def closeGroup (index : Nat) (body : Node) : Read Unit := do
  let width ← widthOf body
  modify fun r => { r with widths := r.widths.setIfInBounds index (some width) }

def conditionGroup (name : List Char) : Read Nat := do
  if isGroupName name then
    match (← get).names.lookup (String.ofList name) with
    | some i => return i
    | none => Read.fail
  else
    match Text.readInteger? (String.ofList name) with
    | some n =>
        if n ≤ 0 ∨ 1073741823 ≤ n then Read.fail
        modify fun r => { r with conditions := n.toNat :: r.conditions }
        return n.toNat
    | none => Read.fail

inductive Opening where
  | comment
  | globalFlags
  | backref (index : Nat)
  | capture (name : Option String)
  | plain (add del : Flags)
  | atomic
  | look (behind negated : Bool)
  | condition (index : Nat)

def readOpening : Read Opening := do
  let room ← Read.room
  if !(← Read.accept '?') then return .capture none
  match ← Read.next with
  | none => Read.fail
  | some token =>
      match token with
      | .plain 'P' =>
          if ← Read.accept '<' then
            let name ← Read.untilChar '>' room []
            if isGroupName name then return .capture (some (String.ofList name))
              else Read.fail
          else if ← Read.accept '=' then
            let name ← Read.untilChar ')' room []
            match (← get).names.lookup (String.ofList name) with
            | some i => return .backref i
            | none => Read.fail
          else Read.fail
      | .plain ':' => return .plain {} {}
      | .plain '#' =>
          if ← Read.skipPast ')' room then return .comment else Read.fail
      | .plain '=' => return .look false false
      | .plain '!' => return .look false true
      | .plain '<' =>
          if ← Read.accept '=' then return .look true false
          else if ← Read.accept '!' then return .look true true
          else Read.fail
      | .plain '(' =>
          return .condition (← conditionGroup (← Read.untilChar ')' room []))
      | .plain '>' => return .atomic
      | _ =>
          match ← readFlags token with
          | none => return .globalFlags
          | some (add, del) => return .plain add del

structure Place where
  flags : Flags
  outermost : Bool
  first : Bool

def closing : Read Unit := do
  if !(← Read.accept ')') then Read.fail

/-- Note a look behind whose width is not fixed. -/
def lookNode (behind negated : Bool) (body : Node) : Read Node := do
  if behind then
    let (lo, hi) ← widthOf body
    if lo ≠ hi ∨ maxRepeat < lo then modify fun r => { r with flawed := true }
    return .look lo negated body
  else return .look 0 negated body

def sequence (items : List Item) : Node :=
  match items with
  | [] => .empty
  | item :: rest => rest.foldl (fun acc i => .seq i.node acc) item.node

def isVerboseBlank (c : Char) : Bool := Text.isNumberBlank c

mutual

def readAlternatives (fuel : Nat) (place : Place) : Read Node :=
  match fuel with
  | 0 => Read.fail
  | fuel + 1 => do
      let first := sequence (← readItems fuel place [])
      if ← Read.accept '|' then
        let r ← get
        let flags := if place.outermost then r.flags else place.flags
        return .alt first (← readAlternatives fuel { place with
          flags := flags, first := false })
      else return first

def readItems (fuel : Nat) (place : Place) (acc : List Item) :
    Read (List Item) :=
  match fuel with
  | 0 => Read.fail
  | fuel + 1 => do
      let flags := place.flags
      let go (node : Node) (repeatable : Bool) : Read (List Item) :=
        readItems fuel place (⟨node, repeatable⟩ :: acc)
      match ← Read.peek with
      | none => return acc
      | some (.plain '|') | some (.plain ')') => return acc
      | some (.escaped c) =>
          Read.advance
          let node ← readEscape c flags
          go node (!(node matches .anchor _))
      | some (.plain c) =>
          Read.advance
          if flags.verbose && isVerboseBlank c then readItems fuel place acc
          else if flags.verbose && c == '#' then
            let _ ← Read.skipPast '\n' (← Read.room)
            readItems fuel place acc
          else
            match c with
            | '.' => go (.any flags.dotAll) true
            | '^' =>
                go (.anchor (if flags.multiline then .lineStart
                  else .textStart)) false
            | '$' =>
                go (.anchor (if flags.multiline then .lineEnd
                  else .lastEnd)) false
            | '[' => go (← readSet flags) true
            | '*' => readItems fuel place (← repeatLast 0 none acc)
            | '+' => readItems fuel place (← repeatLast 1 none acc)
            | '?' => readItems fuel place (← repeatLast 0 (some 1) acc)
            | '{' =>
                match ← readCounts with
                | none => go (literal flags c.toNat) true
                | some (least, most) =>
                    readItems fuel place (← repeatLast least most acc)
            | '(' =>
                match ← readOpening with
                | .comment => readItems fuel place acc
                | .globalFlags =>
                    if !place.first || !acc.isEmpty then Read.fail
                    readItems fuel { place with flags := (← get).flags } acc
                | .backref i => go (← readBackref i flags) true
                | opening => go (← readGroup fuel place opening) true
            | _ => go (literal flags c.toNat) true

def readGroup (fuel : Nat) (place : Place) (opening : Opening) : Read Node :=
  match fuel with
  | 0 => Read.fail
  | fuel + 1 => do
      let inner : Place := ⟨place.flags, false, false⟩
      match opening with
      | .capture name =>
          let index ← openGroup name
          let body ← readAlternatives fuel inner
          closing
          closeGroup index body
          return .group index body
      | .plain add del =>
          let body ← readAlternatives fuel { inner with
            flags := place.flags.within add del }
          closing
          return body
      | .atomic =>
          let body ← readAlternatives fuel inner
          closing
          return .atomic body
      | .look behind negated =>
          let outer := (← get).behind
          if behind && outer.isNone then
            modify fun r => { r with behind := some r.widths.size }
          let body ← readAlternatives fuel inner
          if behind then modify fun r => { r with behind := outer }
          closing
          lookNode behind negated body
      | .condition index =>
          checkBehind index
          let yes := sequence (← readItems fuel inner [])
          let no ←
            if ← Read.accept '|' then
              let no := sequence (← readItems fuel inner [])
              if (← Read.peek) == some (.plain '|') then Read.fail
              pure no
            else pure .empty
          closing
          return .whenGroup index yes no
      | _ => Read.fail

end

def readPattern (length : Nat) (flags : Flags) : Read Pattern := do
  let node ← readAlternatives (4 * length + 4) ⟨flags, true, true⟩
  let r ← get
  if r.flags.ascii && r.flags.unicode then throw .flagConflict
  if r.source.next.isSome then Read.fail
  if r.conditions.any fun i => r.widths.size ≤ i then Read.fail
  if r.flawed || (r.flags.template && r.repeats) then Read.fail
  return ⟨node, r.widths.size - 1⟩

def Pattern.parse (cs : List Char) (flags : Flags := {}) :
    Except PatternError Pattern := do
  let source ← Source.load cs
  (readPattern cs.length flags).run' { source := source, flags := flags }

end Awk.Regex
