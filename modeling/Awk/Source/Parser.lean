import Awk.Source.Tree

/-!
Parsers with ordered choice.

A parser takes what it can from the front of the text and never takes it back.
Beside its result it tells the furthest place where a token was looked for in
vain, which is where a report points.  Texts that are nested too deeply end
every parser that meets them.
-/

namespace Awk.Source

structure Cursor where
  rest : List Char
  offset : Nat
  deriving DecidableEq, Repr

def Cursor.drop (c : Cursor) (n : Nat) : Cursor := ⟨c.rest.drop n, c.offset + n⟩

inductive Found (α : Type) where
  | found (value : α) (next : Cursor)
  | missed
  | tooDeep
  deriving Repr

structure Attempt (α : Type) where
  result : Found α
  reach : Nat
  deriving Repr

def Parser (α : Type) : Type := Cursor → Attempt α

namespace Parser

def pure {α : Type} (a : α) : Parser α := fun c => ⟨.found a c, 0⟩

def bind {α β : Type} (p : Parser α) (f : α → Parser β) : Parser β := fun c =>
  match p c with
  | ⟨.found a next, reach⟩ =>
      let after := f a next
      ⟨after.result, max reach after.reach⟩
  | ⟨.missed, reach⟩ => ⟨.missed, reach⟩
  | ⟨.tooDeep, reach⟩ => ⟨.tooDeep, reach⟩

instance : Monad Parser where
  pure := Parser.pure
  bind := Parser.bind

def orElse {α : Type} (p q : Parser α) : Parser α := fun c =>
  match p c with
  | ⟨.missed, reach⟩ =>
      let other := q c
      ⟨other.result, max reach other.reach⟩
  | attempt => attempt

instance {α : Type} : OrElse (Parser α) where
  orElse p q := Parser.orElse p (q ())

def tooDeep {α : Type} : Parser α := fun _ => ⟨.tooDeep, 0⟩

def here : Parser Cursor := fun c => ⟨.found c c, 0⟩

/-- What a parser finds, if anything.  At the end of the text it is not
tried. -/
def optional {α : Type} (p : Parser α) : Parser (Option α) := fun c =>
  if c.rest.isEmpty then ⟨.found none c, 0⟩
  else
    match p c with
    | ⟨.found a next, reach⟩ => ⟨.found (some a) next, reach⟩
    | ⟨.missed, reach⟩ => ⟨.found none c, reach⟩
    | ⟨.tooDeep, reach⟩ => ⟨.tooDeep, reach⟩

/-- Steps from a value on, as long as they succeed, at most one for each
character of `bound`. -/
def stepsWithin {α : Type} (step : α → Parser α) :
    (bound : List Char) → α → Parser α
  | [], a => Parser.pure a
  | _ :: bound, a => fun c =>
      if c.rest.isEmpty then ⟨.found a c, 0⟩
      else
        match step a c with
        | ⟨.found b next, reach⟩ =>
            let after := stepsWithin step bound b next
            ⟨after.result, max reach after.reach⟩
        | ⟨.missed, reach⟩ => ⟨.found a c, reach⟩
        | ⟨.tooDeep, reach⟩ => ⟨.tooDeep, reach⟩

def steps {α : Type} (step : α → Parser α) (a : α) : Parser α := fun c =>
  stepsWithin step c.rest a c

def many {α : Type} (p : Parser α) : Parser (List α) := do
  let found ← steps (fun found => do let a ← p; Parser.pure (a :: found)) []
  Parser.pure found.reverse

/-! ## Tokens -/

abbrev Scanner := List Char → Option Nat

/-- A token, which counts as looked for in vain where it is missing. -/
def token (scan : Scanner) : Parser Word := fun c =>
  match scan c.rest with
  | some n => ⟨.found ⟨String.ofList (c.rest.take n), c.offset⟩ (c.drop n), 0⟩
  | none => ⟨.missed, c.offset⟩

def require (p : List Char → Bool) : Parser Unit := fun c =>
  if p c.rest then ⟨.found () c, 0⟩ else ⟨.missed, c.offset⟩

/-- Go on if the rest of the text is as `p` says; the end of the attempt is not
reported. -/
def requireSilently (p : List Char → Bool) : Parser Unit := fun c =>
  if p c.rest then ⟨.found () c, 0⟩ else ⟨.missed, 0⟩

end Parser

end Awk.Source
