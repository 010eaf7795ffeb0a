import Awk.Program.Basic

/-!
What a run takes from the machine that it runs on.

Some answers are not in the language: what the clock shows, how deeply
expressions may nest before the stack is full, how much memory a text may take,
which seed a number without a value gives.  They are collected here, so that all
else is a function of them.
-/

namespace Awk

/-! ## Levels of expressions -/

mutual

def Place.levels : Place → Nat
  | .variable _ => 1
  | .element _ keys => Expr.levelsOf keys + 2
  | .field index => index.levels + 1

def Expr.levels : Expr → Nat
  | .number _ | .string _ | .regex _ => 1
  | .read place => place.levels
  | .binary _ left right => max left.levels right.levels + 2
  | .unary _ operand => operand.levels + 1
  | .ternary condition yes no =>
      max condition.levels (max yes.levels no.levels) + 1
  | .call _ args => Expr.levelsOf args + 3
  | .assign _ place value => max place.levels value.levels + 2
  | .increment place _ _ => place.levels + 1
  | .member keys _ => Expr.levelsOf keys + 2
  | .getline place file =>
      max (Place.levelsOption place) (Expr.levelsOption file) + 2
  | .tuple elements => Expr.levelsOf elements + 1

def Expr.levelsOf : List Expr → Nat
  | [] => 0
  | e :: rest => max e.levels (Expr.levelsOf rest)

def Expr.levelsOption : Option Expr → Nat
  | none => 0
  | some e => e.levels

def Place.levelsOption : Option Place → Nat
  | none => 0
  | some place => place.levels

end

def Place.isName : Place → Bool
  | .variable _ => true
  | _ => false

def Expr.isLeaf : Expr → Bool
  | .number _ | .string _ | .regex _ => true
  | .read place => place.isName
  | _ => false

def Expr.isFlat : Expr → Bool
  | .call _ args => args.all Expr.isLeaf
  | .getline place file => place.all Place.isName && file.all Expr.isLeaf
  | e => e.isLeaf

theorem Place.levels_of_isName :
    {place : Place} → place.isName = true → place.levels = 1
  | .variable _, _ => rfl

theorem Expr.levels_of_isLeaf {e : Expr} (h : e.isLeaf = true) :
    e.levels = 1 := by
  cases e with
  | number | string | regex => rfl
  | read place => exact Place.levels_of_isName h
  | _ => contradiction

theorem Expr.levelsOf_le {es : List Expr} (h : es.all Expr.isLeaf = true) :
    Expr.levelsOf es ≤ 1 := by
  induction es with
  | nil => exact Nat.zero_le 1
  | cons e rest ih =>
      rw [List.all_cons, Bool.and_eq_true] at h
      rw [Expr.levelsOf, Expr.levels_of_isLeaf h.1]
      exact Nat.max_le.2 ⟨Nat.le_refl 1, ih h.2⟩

theorem Expr.levels_of_isFlat {e : Expr} (h : e.isFlat = true) :
    e.levels ≤ 4 := by
  cases e with
  | call name args => exact Nat.add_le_add_right (Expr.levelsOf_le h) 3
  | getline place file =>
      obtain ⟨named, leaf⟩ := (Bool.and_eq_true _ _).mp h
      have target : Place.levelsOption place ≤ 1 := by
        cases place with
        | none => exact Nat.zero_le 1
        | some place => exact Nat.le_of_eq (Place.levels_of_isName named)
      have source : Expr.levelsOption file ≤ 1 := by
        cases file with
        | none => exact Nat.zero_le 1
        | some e => exact Nat.le_of_eq (Expr.levels_of_isLeaf leaf)
      rw [Expr.levels]
      omega
  | _ => exact Nat.le_trans (Nat.le_of_eq (Expr.levels_of_isLeaf h)) (by decide)

/-! ## The room for expressions -/

/--
How deeply expressions may nest.  Nested calls and nested operators share one
room: a limit that allows more calls leaves no less of it.
-/
structure Room where
  levels : Expr → Nat
  left : (limit : Int) → (depth : Nat) → Nat
  left_mono : ∀ {low high : Int} (depth : Nat), low ≤ high →
    left low depth ≤ left high depth
  flat_le : ∀ {e : Expr} (limit : Int) (depth : Nat), e.isFlat = true →
    levels e ≤ left limit depth

namespace Room

def fits (r : Room) (limit : Int) (depth : Nat) (e : Expr) : Bool :=
  r.levels e ≤ r.left limit depth

def standard : Room where
  levels := Expr.levels
  left limit depth := 1000 + 100 * (limit - depth).toNat
  left_mono depth le := by omega
  flat_le limit depth flat := by
    have few := Expr.levels_of_isFlat flat
    omega

end Room

/-! ## The platform -/

structure Platform where
  clock : Nat := 0
  /-- The longest text that a template can ask for. -/
  memory : Nat := Nat.pow 2 35
  nesting : Nat := 1400
  room : Room := .standard
  /-- The seeds that numbers without a value give, one after the other. -/
  nanSeed : Nat → Int := fun _ => 0

def framesFor (calls : Int) : Int := 1000 + 100 * calls

/-- Stacks can have this many frames. -/
def maxFrames : Int := 2147483647

end Awk
