import Awk.Proofs.Ranges
import Awk.Proofs.Scope.Aliases
import Awk.Proofs.Text.Pieces

/-!
# Filling an array with the pieces of a text

`split` evaluates its text and its separator first, and then puts the pieces
into the array in place of everything that was there, the text itself included
if it was an element of the array.  The array stays the same array, so that the
change is seen under all of its names, and under no other name.
-/

namespace Awk

namespace Names

/-- A name that can be used as an array: it stands for one, for the empty text
or for nothing. -/
def Arrayable (n : Names) (a : String) : Prop :=
  (∃ id, n.arrays.get? a = some id ∧ id < n.store.size) ∨
    n.arrays.get? a = none ∧ (n.scalars.get? a = none ∨
      n.scalars.get? a = some (.text ""))

/-- The array of a name holds new elements; other names stand for what they
stood for, and other arrays hold what they held. -/
structure Refilled (n n' : Names) (a : String) (elements : Table Value) :
    Prop where
  contents : n'.contents? a = some elements
  same : ∀ id, n.arrays.get? a = some id → n'.arrays.get? a = some id
  arrays : ∀ x, x ≠ a → n'.arrays.get? x = n.arrays.get? x
  scalars : ∀ x, x ≠ a → n'.scalars.get? x = n.scalars.get? x
  others : ∀ x id, n.arrays.get? x = some id → id < n.store.size →
    n.arrays.get? a ≠ some id → n'.contents? x = n.contents? x

variable {n : Names} {a : String} {id : ArrayId}

theorem array_setArray (inside : id < n.store.size) (t : Table Value) :
    (n.setArray id t).array id = t := by
  simp [array, setArray, inside]

theorem refilled_setArray (found : n.arrays.get? a = some id)
    (inside : id < n.store.size) (t : Table Value) :
    n.Refilled (n.setArray id t) a t where
  contents := by
    change (n.arrays.get? a).map (n.setArray id t).array = some t
    rw [found, Option.map_some, array_setArray inside]
  same _ h := h
  arrays _ _ := rfl
  scalars _ _ := rfl
  others x j found' _ apart := by
    apply contents?_setArray
    rw [found']
    rintro ⟨⟩
    exact apart found

theorem refilled_newArray (absent : n.arrays.get? a = none) (t : Table Value) :
    n.Refilled ((n.newArray a).1.setArray n.store.size t) a t where
  contents := by
    change ((n.newArray a).1.arrays.get? a).map
      ((n.newArray a).1.setArray n.store.size t).array = some t
    rw [arrays_newArray_self, Option.map_some,
      array_setArray (by simp [newArray])]
  same id found := by simp [absent] at found
  arrays x different := arrays_newArray_of_ne different
  scalars x different := by simp [newArray, setArray, different]
  others x j found inside _ := by
    have different : x ≠ a := by
      rintro rfl
      simp [absent] at found
    have apart : (n.newArray a).1.arrays.get? x ≠ some n.store.size := by
      rw [arrays_newArray_of_ne different, found]
      rintro ⟨⟩
      exact Nat.lt_irrefl _ inside
    rw [contents?_setArray apart, contents?_newArray apart]

theorem Arrayable.refilled (usable : n.Arrayable a) (t : Table Value) :
    ∃ used id, n.useArray a = .ok (used, id) ∧
    n.Refilled (used.setArray id t) a t := by
  rcases usable with ⟨id, found, inside⟩ | ⟨absent, scalar⟩
  · exact ⟨n, id, by simp [useArray, found], refilled_setArray found inside t⟩
  · refine ⟨(n.newArray a).1, n.store.size, ?_, refilled_newArray absent t⟩
    rcases scalar with unset | empty
    · simp [useArray, absent, unset, newArray]
    · simp [useArray, absent, empty, newArray]

end Names

/-! ## The call -/

variable {run : Services} {m m₁ m₂ : Machine}

theorem Expr.argument_pattern (e : Expr) :
    (e.argument run).pattern = e.literalPattern? := by
  cases e <;> rfl

theorem Expr.argument_text {e : Expr} {v : Value} {text : String}
    (evaluated : e.eval run m = .ok v m₁) (told : m₁.textOf v = .ok text) :
    (e.argument run).text m = .ok text m₁ := by
  rw [Argument.text, e.argument_value, Exec.bind_ok evaluated]
  exact Exec.textOf_ok told

theorem split_eval (text separator : Expr) (a : String) :
    (Expr.call "split" [text, .read (.variable a), separator]).eval run =
      (do
        let text ← (text.argument run).text
        let parts ← Builtin.pieces text (some (separator.argument run))
        let id ← Exec.useArray a
        Exec.fillArray id parts
        return Builtin.count parts.length : Exec Value) := by
  rw [Expr.eval, Expr.arguments_eq_map]
  rfl

theorem pieces_of_separator {separator : Expr} {w : Value} {cutter : String}
    (plain : separator.literalPattern? = none)
    (evaluated : separator.eval run m = .ok w m₁)
    (told : m₁.textOf w = .ok cutter) (text : String) :
    Builtin.pieces text (some (separator.argument run)) m =
      Exec.splitWith text cutter m₁ := by
  simp only [Builtin.pieces, Expr.argument_pattern, plain]
  exact Exec.bind_ok (Expr.argument_text evaluated told) _

/-- After `split` with a character other than the space, the array holds the
pieces of the text under the numbers from one on and nothing else.  The
character is in none of them, and joined with it they are the text.  Nothing
changes but the array, and the name if it was none. -/
theorem split_at_character {run : BodyRunner} (occurs : run.Occurs)
    (coherent : m.regexes.Coherent)
    {text separator : Expr} {v w : Value} {s : String}
    (first : text.eval run m = .ok v m₁) (told : m₁.textOf v = .ok s)
    (second : separator.eval run m₁ = .ok w m₂)
    (plain : separator.literalPattern? = none) {c : Char} (space : c ≠ ' ')
    (single : m₂.textOf w = .ok (String.singleton c)) {a : String}
    (usable : m₂.names.Arrayable a) :
    ∃ pieces elements names,
      (Expr.call "split" [text, .read (.variable a), separator]).eval run m =
        .ok (.number (.ofNat pieces.length)) { m₂ with names := names } ∧
      m₂.names.Refilled names a elements ∧
      elements.keys = (List.range' 1 pieces.length).map Nat.repr ∧
      (∀ i piece, pieces[i]? = some piece →
        elements.get? (Nat.repr (i + 1)) = some (.text piece) ∧
        c ∉ piece.toList) ∧
      (String.singleton c).intercalate pieces = s ∧ (s = "" → pieces = []) := by
  have kept (e : Expr) := undisturbed_alongActions.eval_keeps run occurs e
  have coherent₂ : m₂.regexes.Coherent :=
    ((kept separator).of_ok second).coherent
      (((kept text).of_ok first).coherent coherent)
  let pieces := (Splitter.literal [c]).split s
  let elements := Table.numbered (pieces.map Value.text)
  obtain ⟨used, id, usedAs, refilled⟩ := usable.refilled elements
  have cut : Builtin.pieces s (some (separator.argument run)) m₁ =
      .ok pieces m₂ := by
    rw [pieces_of_separator plain second single]
    exact Exec.splitWith_singleton coherent₂ space s
  refine ⟨pieces, elements, used.setArray id elements, ?_, refilled, ?_, ?_,
    Text.intercalate_split c s, ?_⟩
  · rw [split_eval, Exec.bind_ok (Expr.argument_text first told),
      Exec.bind_ok cut, Exec.bind_ok (useArray_of_ok usedAs)]
    rfl
  · rw [Table.keys_numbered, List.length_map]
  · intro i piece here
    exact ⟨Table.get?_numbered (by simp [here]),
      Text.not_mem_split (List.mem_of_getElem? here)⟩
  · intro empty
    change (Splitter.literal [c]).split s = []
    rw [empty, Text.split_literal_empty]

/-- The text is an element of the array, and the separator is the backslash. -/
theorem element_split_into_its_array :
    let before : Names :=
      { arrays := Table.ofList [("a", 0)],
        store := #[Table.ofList [("old", .text "x\\y\\\\z")]] }
    let m : Machine := { names := before }
    ∃ pieces elements names,
    (Expr.call "split" [.read (.element "a" [.string "old"]),
      .read (.variable "a"), .string "\\"]).eval runFunction m =
      .ok (.number (.ofNat pieces.length)) { m with names := names } ∧
    before.Refilled names "a" elements ∧
    elements.keys = (List.range' 1 pieces.length).map Nat.repr ∧
    (String.singleton '\\').intercalate pieces = "x\\y\\\\z" := by
  intro before m
  have usable : before.Arrayable "a" := .inl ⟨0, by decide, by decide⟩
  have first : (Expr.read (.element "a" [.string "old"])).eval runFunction m =
      .ok (.text "x\\y\\\\z") m := rfl
  have second : (Expr.string "\\").eval runFunction m = .ok (.text "\\") m :=
    rfl
  have space : '\\' ≠ ' ' := by decide
  obtain ⟨pieces, elements, names, called, refilled, keys, -, joined, -⟩ :=
    split_at_character .standard Regex.Cache.coherent_empty first rfl second rfl
      space rfl usable
  exact ⟨pieces, elements, names, called, refilled, keys, joined⟩

end Awk
