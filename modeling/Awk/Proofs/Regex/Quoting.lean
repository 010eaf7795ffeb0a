import Awk.Regex.Substitute
import Mathlib.Data.List.DropRight

/-!
# Quoting in a replacement

A replacement is scanned from left to right, and a backslash is taken together
with an ampersand or a backslash behind it. The signs found this way are shown
one by one, so that what is said about a replacement is said about its signs:
those of a quoted text are its characters, and those of two replacements in a
row are the signs of both, unless the first one ends in a backslash that is
still alone.
-/

namespace Awk.Regex

/-- What the scan of a replacement takes at once: a character behind its
backslash, or one that stands alone. -/
inductive Sign where
  | quoted (c : Char)
  | alone (c : Char)
  deriving DecidableEq

def signs : List Char → List Sign
  | [] => []
  | [c] => [.alone c]
  | b :: c :: rest =>
      if b = '\\' ∧ (c = '&' ∨ c = '\\') then .quoted c :: signs rest
      else .alone b :: signs (c :: rest)

def Sign.shown (matched : List Char) : Sign → List Char
  | .quoted c => [c]
  | .alone c => if c = '&' then matched else [c]

def EndsUnpaired (replacement : List Char) : Prop :=
  (signs replacement).getLast? = some (.alone '\\')

instance (replacement : List Char) : Decidable (EndsUnpaired replacement) :=
  inferInstanceAs (Decidable (_ = _))

def quoteReplacement (text : List Char) : List Char :=
  text.flatMap fun c => if c = '&' ∨ c = '\\' then ['\\', c] else [c]

variable {r r₁ : List Char}

/-! ## The signs of a replacement -/

theorem signs_quoted {c : Char} (special : c = '&' ∨ c = '\\')
    (rest : List Char) :
    signs ('\\' :: c :: rest) = .quoted c :: signs rest :=
  if_pos ⟨rfl, special⟩

theorem signs_cons_of_ne {c : Char} (other : c ≠ '\\') (rest : List Char) :
    signs (c :: rest) = .alone c :: signs rest := by
  cases rest with
  | nil => rfl
  | cons d rest => exact if_neg fun pair => other pair.1

theorem fillReplacement_eq_flatMap_signs (matched replacement : List Char) :
    fillReplacement matched replacement =
      (signs replacement).flatMap (Sign.shown matched) := by
  fun_induction signs replacement with
  | case1 => rfl
  | case2 c => simp [fillReplacement, Sign.shown]
  | case3 b c rest pair ih =>
      obtain ⟨rfl, rfl | rfl⟩ := pair
      · rw [fillReplacement, ih]; rfl
      · rw [fillReplacement, ih]; rfl
  | case4 b c rest single ih =>
      rw [fillReplacement, ih, List.flatMap_cons, Sign.shown]
      · split <;> rfl
      · rintro _ rfl ⟨⟩
        exact single ⟨rfl, .inl rfl⟩
      · rintro _ rfl ⟨⟩
        exact single ⟨rfl, .inr rfl⟩

/-! ## Quoted texts -/

theorem signs_quoteReplacement (text : List Char) :
    signs (quoteReplacement text) = text.map fun c => if c = '&' ∨
    c = '\\' then .quoted c else .alone c := by
  induction text with
  | nil => rfl
  | cons c text ih =>
      rw [quoteReplacement, List.flatMap_cons, ← quoteReplacement,
        List.map_cons, ← ih]
      by_cases special : c = '&' ∨ c = '\\'
      · rw [if_pos special, if_pos special]
        exact signs_quoted special (quoteReplacement text)
      · rw [if_neg special, if_neg special]
        exact signs_cons_of_ne (fun backslash => special (.inr backslash))
          (quoteReplacement text)

theorem fillReplacement_quoteReplacement (matched text : List Char) :
    fillReplacement matched (quoteReplacement text) = text := by
  have itself (c : Char) : Sign.shown matched (if c = '&' ∨
      c = '\\' then .quoted c else .alone c) = [c] := by
    split
    · rfl
    · rename_i plain
      exact if_neg fun ampersand => plain (.inl ampersand)
  rw [fillReplacement_eq_flatMap_signs, signs_quoteReplacement,
    List.flatMap_map]
  simp only [itself, List.flatMap_singleton']

/-! ## Replacements in a row -/

/-- What follows is scanned on its own unless it stands behind an unpaired
backslash. -/
theorem signs_append (paired : ¬EndsUnpaired r₁) (r₂ : List Char) :
    signs (r₁ ++ r₂) = signs r₁ ++ signs r₂ := by
  unfold EndsUnpaired at paired
  fun_induction signs r₁ with
  | case1 => rfl
  | case2 c =>
      have other : c ≠ '\\' := by simpa using paired
      exact signs_cons_of_ne other r₂
  | case3 b c rest pair ih =>
      obtain ⟨rfl, special⟩ := pair
      have behind : (signs rest).getLast? ≠ some (.alone '\\') := fun last =>
        paired (by rw [List.getLast?_cons, last]; rfl)
      exact (signs_quoted special (rest ++ r₂)).trans (congrArg _ (ih behind))
  | case4 b c rest single ih =>
      have behind : (signs (c :: rest)).getLast? ≠
          some (.alone '\\') := fun last =>
        paired (by rw [List.getLast?_cons, last]; rfl)
      exact (if_neg single).trans (congrArg _ (ih behind))

theorem endsUnpaired_backslash (paired : ¬EndsUnpaired r) :
    EndsUnpaired (r ++ ['\\']) := by
  rw [EndsUnpaired, signs_append paired, signs, List.getLast?_concat]

theorem EndsUnpaired.exists_eq_append (h : EndsUnpaired r) :
    ∃ before, r = before ++ ['\\'] ∧ ¬EndsUnpaired before := by
  induction r using List.reverseRecOn with
  | nil => simp [EndsUnpaired, signs] at h
  | append_singleton r c ih =>
      by_cases unpaired : EndsUnpaired r
      · -- Whatever stands behind a backslash that is left alone, the
        -- backslash is not the last sign any more.
        obtain ⟨before, rfl, paired⟩ := ih unpaired
        rw [EndsUnpaired, List.append_assoc, signs_append paired] at h
        by_cases special : c = '&' ∨ c = '\\'
        · rw [List.singleton_append, signs_quoted special, signs,
            List.getLast?_concat] at h
          cases h
        · have last : c = '\\' := by simpa [signs, special] using h
          exact absurd (.inr last) special
      · rw [EndsUnpaired, signs_append unpaired, signs, List.getLast?_concat]
          at h
        cases h
        exact ⟨r, rfl, unpaired⟩

theorem endsUnpaired_concat {c : Char} : EndsUnpaired (r ++ [c]) ↔ c = '\\' ∧
    ¬EndsUnpaired r := by
  constructor
  · intro h
    obtain ⟨before, same, paired⟩ := h.exists_eq_append
    obtain ⟨rfl, last⟩ := List.append_inj' same rfl
    exact ⟨List.singleton_inj.1 last, paired⟩
  · rintro ⟨rfl, paired⟩
    exact endsUnpaired_backslash paired

/-- The backslashes at the end are paired from the first one on. -/
theorem endsUnpaired_iff_odd : EndsUnpaired r ↔
    (r.rtakeWhile (· = '\\')).length % 2 = 1 := by
  induction r using List.reverseRecOn with
  | nil => simp [EndsUnpaired, signs]
  | append_singleton r c ih =>
      rw [endsUnpaired_concat, List.rtakeWhile_concat, ih]
      by_cases backslash : c = '\\'
      · simp only [backslash, decide_true, if_true, List.length_append,
          List.length_singleton, true_and]
        omega
      · simp [backslash]

theorem fillReplacement_append (matched : List Char) (paired : ¬EndsUnpaired r₁)
    (r₂ : List Char) :
    fillReplacement matched (r₁ ++ r₂) = fillReplacement matched r₁ ++
      fillReplacement matched r₂ := by
  simp only [fillReplacement_eq_flatMap_signs, signs_append paired,
    List.flatMap_append]

theorem EndsUnpaired.fillReplacement_backslash (h : EndsUnpaired r)
    (matched : List Char) :
    fillReplacement matched (r ++ ['\\']) = fillReplacement matched r := by
  obtain ⟨before, rfl, paired⟩ := h.exists_eq_append
  rw [List.append_assoc, fillReplacement_append matched paired,
    fillReplacement_append matched paired]
  rfl

/-- A quoted text stands for itself, whatever was matched.  Two replacements in
a row show what each of them shows if the first one does not end in an unpaired
backslash; if it does, a backslash put behind it is not shown as well.  A
replacement ends in an unpaired backslash exactly if the number of backslashes
at its end is odd. -/
theorem replacements_quoted_and_joined (matched : List Char) :
    (∀ text, fillReplacement matched (quoteReplacement text) = text) ∧
    (∀ r₁ r₂, ¬EndsUnpaired r₁ →
      fillReplacement matched (r₁ ++ r₂) = fillReplacement matched r₁ ++
        fillReplacement matched r₂) ∧
    (∀ r₁, EndsUnpaired r₁ →
      fillReplacement matched (r₁ ++ ['\\']) ≠ fillReplacement matched r₁ ++
        fillReplacement matched ['\\']) ∧
    ∀ r, EndsUnpaired r ↔ (r.rtakeWhile (· = '\\')).length % 2 = 1 := by
  refine ⟨fillReplacement_quoteReplacement matched,
    fun r₁ r₂ paired => fillReplacement_append matched paired r₂,
    fun r₁ unpaired same => ?_, fun r => endsUnpaired_iff_odd⟩
  rw [unpaired.fillReplacement_backslash] at same
  have longer := congrArg List.length same
  simp [fillReplacement] at longer

/-- Two backslashes are a pair, and the ampersand behind them is the match; of
three the last one is unpaired. -/
theorem ampersand_behind_backslashes :
    fillReplacement ['a', 'b'] (quoteReplacement ['\\', '\\', '&']) =
      ['\\', '\\', '&'] ∧
      ¬EndsUnpaired ['\\', '\\'] ∧
      fillReplacement ['a', 'b'] (['\\', '\\'] ++ ['&']) = ['\\', 'a', 'b'] ∧
      EndsUnpaired ['\\', '\\', '\\'] ∧
      fillReplacement ['a', 'b'] (['\\', '\\', '\\'] ++ ['\\']) ≠
        ['\\', '\\'] ++ ['\\'] := by
  obtain ⟨quoted, joined, apart, -⟩ := replacements_quoted_and_joined ['a', 'b']
  have paired : ¬EndsUnpaired ['\\', '\\'] := by decide
  have unpaired : EndsUnpaired ['\\', '\\', '\\'] := by decide
  exact ⟨quoted _, paired, joined _ ['&'] paired, unpaired, apart _ unpaired⟩

end Awk.Regex
