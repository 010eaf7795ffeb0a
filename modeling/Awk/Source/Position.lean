import Awk.Text.Split

/-!
Places in source text, as line and column.

Lines are divided by newlines alone, and both numbers count from one.
-/

namespace Awk.Source

structure Position where
  line : Nat
  column : Nat
  deriving DecidableEq, Repr

namespace Position

def start : Position := ⟨1, 1⟩

def advance (p : Position) (c : Char) : Position :=
  if c = '\n' then ⟨p.line + 1, 1⟩ else ⟨p.line, p.column + 1⟩

def ofOffset (source : List Char) (offset : Nat) : Position :=
  (source.take offset).foldl advance start

def toOffset (source : List Char) (p : Position) : Nat :=
  let before := (Text.splitOn '\n' source).take (p.line - 1)
  before.foldl (fun total line => total + line.length + 1) 0 + (p.column - 1)

end Position

end Awk.Source
