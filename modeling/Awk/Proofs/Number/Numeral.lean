import Awk.Proofs.Text.Strip
import Awk.Value
import Mathlib.Data.List.TakeDrop

/-!
# Numerals at the front of a text

A numeral that is read stands at the front of the text as it is written.  What
follows a text does not matter to it if it starts with a character that no
numeral has, such as white space.  So a numeral with white space around it is
read whole, if it is found: only some of the white space is passed over in front
of it.
-/

namespace Awk

namespace Numeral

def Stops (t : List Char) : Prop := ∀ c ∈ t.head?, Text.isDigit c = false ∧
    c ∉ ['.', '+', '-', 'e', 'E']

variable {t : List Char}

theorem Stops.eq (stops : Stops t) :
    t = [] ∨ ∃ c s, t = c :: s ∧ c ≠ '.' ∧ c ≠ '+' ∧ c ≠ '-' ∧ c ≠ 'e' ∧
    c ≠ 'E' := by
  cases t with
  | nil => exact .inl rfl
  | cons c s => exact .inr ⟨c, s, rfl, by simpa using (stops c rfl).2⟩

/-! ## Parts of a numeral -/

theorem span_append (cs : List Char) (p : Char → Bool) :
    (cs.span p).1 ++ (cs.span p).2 = cs := by
  rw [List.span_eq_takeWhile_dropWhile]
  exact List.takeWhile_append_dropWhile

theorem span_stop (stops : Stops t) (cs : List Char) :
    (cs ++ t).span Text.isDigit = ((cs.span Text.isDigit).1,
      (cs.span Text.isDigit).2 ++ t) := by
  have stop : ∀ c ∈ t.head?, Text.isDigit c = false :=
    fun c first => (stops c first).1
  simp only [List.span_eq_takeWhile_dropWhile]
  rw [Text.takeWhile_append_stop stop, Text.dropWhile_append_stop stop]

theorem scanMantissa_eq_some {cs rest digits decimals : List Char}
    {point : Bool} (h : scanMantissa cs = some ((digits, point, decimals),
      rest)) :
    cs = digits ++ (if point then ['.'] else []) ++ decimals ++ rest ∧
    1 ≤ digits.length + decimals.length := by
  unfold scanMantissa at h
  have front := span_append cs Text.isDigit
  generalize cs.span Text.isDigit = parts at h front
  obtain ⟨front', behind⟩ := parts
  subst front
  dsimp only at h
  split at h
  · rename_i afterPoint
    have front := span_append afterPoint Text.isDigit
    generalize afterPoint.span Text.isDigit = parts at h front
    obtain ⟨more, after⟩ := parts
    subst front
    split at h
    · contradiction
    · rename_i filled
      cases h
      refine ⟨by simp, ?_⟩
      cases digits with
      | nil =>
          cases more with
          | nil => contradiction
          | cons c r => simp
      | cons c r =>
          rw [List.length_cons]
          omega
  · split at h
    · contradiction
    · rename_i filled
      cases h
      refine ⟨by simp, ?_⟩
      cases digits with
      | nil => contradiction
      | cons c r => simp

theorem scanMantissa_stop (stops : Stops t) (cs : List Char) :
    scanMantissa (cs ++ t) = (scanMantissa cs).map fun found =>
      (found.1, found.2 ++ t) := by
  unfold scanMantissa
  rw [span_stop stops]
  generalize cs.span Text.isDigit = parts
  obtain ⟨front, behind⟩ := parts
  dsimp only
  cases behind with
  | nil =>
      obtain rfl | ⟨c, s, rfl, point, -⟩ := stops.eq
      · simp
      · cases front <;> simp [point]
  | cons c r =>
      by_cases point : c = '.'
      · subst point
        simp only [List.cons_append, span_stop stops]
        split <;> rfl
      · have other (more : List Char) : c :: r ≠ '.' :: more :=
          fun same => point (List.cons.inj same).1
        have other' (more : List Char) : c :: (r ++ t) ≠ '.' :: more :=
          fun same => point (List.cons.inj same).1
        simp only [List.cons_append]
        split <;> rfl

theorem scanSign_append (cs : List Char) :
    (scanSign cs).1.toList ++ (scanSign cs).2 = cs := by
  unfold scanSign
  split <;> rfl

theorem scanSign_stop (stops : Stops t) (cs : List Char) :
    scanSign (cs ++ t) = ((scanSign cs).1, (scanSign cs).2 ++ t) := by
  cases cs with
  | nil =>
      obtain rfl | ⟨c, s, rfl, -, plus, minus, -⟩ := stops.eq
      · rfl
      · simp [scanSign, plus, minus]
  | cons c r =>
      rw [List.cons_append]
      unfold scanSign
      split <;> simp_all

theorem scanPower_append (cs : List Char) :
    ((scanPower cs).1.map PowerOfTen.text).getD [] ++ (scanPower cs).2 =
      cs := by
  cases cs with
  | nil => rfl
  | cons c r =>
      have sign := scanSign_append r
      rw [scanPower]
      split
      · dsimp only
        split
        · rfl
        · simp [PowerOfTen.text, sign]
      · rfl

theorem scanPower_stop (stops : Stops t) (cs : List Char) :
    scanPower (cs ++ t) = ((scanPower cs).1, (scanPower cs).2 ++ t) := by
  cases cs with
  | nil =>
      obtain rfl | ⟨c, s, rfl, -, -, -, small, large⟩ := stops.eq
      · rfl
      · simp [scanPower, small, large]
  | cons c r =>
      rw [List.cons_append, scanPower, scanPower, scanSign_stop stops]
      dsimp only
      rw [span_stop stops]
      split
      · split <;> rfl
      · rfl

/-! ## Whole numerals -/

theorem scanUnsigned_eq_some {cs rest : List Char} {n : Numeral}
    (h : scanUnsigned cs = some (n, rest)) :
    n.sign = none ∧ cs = n.text ++ rest ∧ 1 ≤ n.text.length := by
  unfold scanUnsigned at h
  split at h
  · contradiction
  · rename_i whole point fraction behind mantissa
    obtain ⟨rfl, filled⟩ := scanMantissa_eq_some mantissa
    have power := scanPower_append behind
    generalize scanPower behind = found at h power
    obtain ⟨power?, after⟩ := found
    cases h
    subst power
    refine ⟨rfl, by simp [text], ?_⟩
    simp only [text, List.length_append]
    omega

theorem scan_eq_some {cs rest : List Char} {n : Numeral}
    (h : scan cs = some (n, rest)) : cs = n.text ++ rest := by
  unfold scan at h
  have front := scanSign_append cs
  generalize scanSign cs = parts at h front
  obtain ⟨sign, behind⟩ := parts
  obtain ⟨⟨unsigned, after⟩, found, same⟩ := Option.map_eq_some_iff.1 h
  obtain ⟨plain, rfl, -⟩ := scanUnsigned_eq_some found
  cases same
  subst front
  simp [text, plain]

theorem scanUnsigned_stop (stops : Stops t) (cs : List Char) :
    scanUnsigned (cs ++ t) = (scanUnsigned cs).map fun found =>
      (found.1, found.2 ++ t) := by
  unfold scanUnsigned
  rw [scanMantissa_stop stops]
  cases scanMantissa cs with
  | none => rfl
  | some found =>
      dsimp only [Option.map_some]
      rw [scanPower_stop stops]

theorem scan_stop (stops : Stops t) (cs : List Char) :
    scan (cs ++ t) = (scan cs).map fun found => (found.1, found.2 ++ t) := by
  unfold scan
  rw [scanSign_stop stops]
  dsimp only
  rw [scanUnsigned_stop stops, Option.map_map, Option.map_map]
  rfl

theorem scan_eq_none (stops : Stops t) : scan t = none := scan_stop stops []

/-! ## White space -/

theorem isSpace_digit : ∀ z ∈ Text.digitZeros, ∀ k < 10,
    Text.isSpace (Char.ofNat (z + k)) = false := by
  decide +kernel

theorem isDigit_of_isSpace {c : Char} (space : Text.isSpace c = true) :
    Text.isDigit c = false := by
  rw [Text.isDigit, Option.isSome_eq_false_iff, Option.isNone_iff_eq_none,
    Text.digitValue?, List.findSome?_eq_none_iff]
  intro z zero
  rw [if_neg]
  rintro ⟨least, most⟩
  have digit := isSpace_digit z zero (c.toNat - z) (by omega)
  rw [Nat.add_sub_cancel' least, Char.ofNat_toNat, space] at digit
  contradiction

theorem stops_of_isSpace (space : ∀ c ∈ t.head?, Text.isSpace c = true) :
    Stops t := by
  intro c first
  have isSpace := space c first
  refine ⟨isDigit_of_isSpace isSpace, fun part => ?_⟩
  simp only [List.mem_cons, List.not_mem_nil, or_false] at part
  rcases part with rfl | rfl | rfl | rfl | rfl <;> contradiction

theorem isNumberBlank_eq_false {c : Char} (other : Text.isSpace c = false) :
    Text.isNumberBlank c = false := by
  simp only [Text.isSpace, Bool.or_eq_false_iff, Bool.and_eq_false_iff,
    decide_eq_false_iff_not] at other
  simp only [Text.isNumberBlank, Bool.or_eq_false_iff, Bool.and_eq_false_iff,
    decide_eq_false_iff_not, beq_eq_false_iff_ne]
  refine ⟨?_, by omega⟩
  rintro rfl
  revert other
  decide

/-- A text is a numeral with white space in front of it and behind it. -/
structure SpelledIn (n : Numeral) (s : String) (before after : List Char) :
    Prop where
  text : s.toList = before ++ n.text ++ after
  front : ∀ c ∈ before, Text.isSpace c = true
  back : ∀ c ∈ after, Text.isSpace c = true
  whole : scan n.text = some (n, [])

variable {n : Numeral} {s : String} {before after : List Char}

theorem head?_text (whole : scan n.text = some (n, [])) :
    ∀ c ∈ n.text.head?, Text.isSpace c = false := by
  intro c first
  by_contra space
  have stops : Stops n.text := by
    apply stops_of_isSpace
    intro d same
    obtain rfl : d = c := Option.mem_unique same first
    simpa using space
  rw [scan_eq_none stops] at whole
  contradiction

theorem getLast?_text (whole : scan n.text = some (n, [])) :
    ∀ c ∈ n.text.getLast?, Text.isSpace c = false := by
  intro c last
  by_contra space
  obtain ⟨cs, same⟩ := List.getLast?_eq_some_iff.1 last
  have stops : Stops [c] := stops_of_isSpace (by simpa using space)
  rw [same, scan_stop stops, Option.map_eq_some_iff] at whole
  obtain ⟨found, -, same⟩ := whole
  simp at same

theorem isSpelledBy_iff : Number.isSpelledBy s = true ↔
    ∃ before n after, SpelledIn n s before after := by
  constructor
  · intro spelled
    obtain ⟨before, after, parted, front, back⟩ :=
      Text.strip_parts Text.isSpace s.toList
    unfold Number.isSpelledBy at spelled
    split at spelled
    · rename_i n whole
      have same := scan_eq_some whole
      rw [List.append_nil] at same
      rw [same] at parted whole
      exact ⟨before, n, after, parted, front, back, whole⟩
    · contradiction
  · rintro ⟨before, n, after, h⟩
    have stripped : Text.strip Text.isSpace s.toList = n.text := by
      rw [h.text, Text.strip_surrounded h.front h.back]
      exact Text.strip_eq_self (head?_text h.whole) (getLast?_text h.whole)
    rw [Number.isSpelledBy, stripped, h.whole]

namespace SpelledIn

theorem scan_behind_blanks (h : SpelledIn n s before after)
    (blank : ∀ c ∈ before, Text.isNumberBlank c = true) :
    scan (s.toList.dropWhile Text.isNumberBlank) = some (n, after) := by
  have stops : Stops after := stops_of_isSpace fun c first =>
    h.back c (List.mem_of_mem_head? first)
  have kept : (n.text ++ after).dropWhile Text.isNumberBlank = n.text ++
      after := by
    have first := head?_text h.whole
    cases same : n.text with
    | nil =>
        have none := h.whole
        rw [same] at none
        contradiction
    | cons c rest =>
        rw [same] at first
        simp [isNumberBlank_eq_false (first c rfl)]
  rw [h.text, List.append_assoc, List.dropWhile_append_of_pos blank, kept,
    scan_stop stops, h.whole]
  rfl

theorem scan_behind_other_space (h : SpelledIn n s before after)
    (other : ∃ c ∈ before, Text.isNumberBlank c = false) :
    scan (s.toList.dropWhile Text.isNumberBlank) = none := by
  obtain ⟨c, among, other⟩ := other
  have left : before.dropWhile Text.isNumberBlank ≠ [] := by
    intro gone
    rw [List.dropWhile_eq_nil_iff.1 gone c among] at other
    contradiction
  apply scan_eq_none
  apply stops_of_isSpace
  intro d first
  rw [h.text, List.append_assoc, List.dropWhile_append,
    if_neg (by simpa using left), List.head?_append_of_ne_nil _ left] at first
  exact h.front d ((List.dropWhile_sublist _).subset
    (List.mem_of_mem_head? first))

theorem ofText_eq (h : SpelledIn n s before after)
    (blank : ∀ c ∈ before, Text.isNumberBlank c = true) :
    Number.ofText s = n.value := by
  rw [Number.ofText, h.scan_behind_blanks blank]

theorem ofText_eq_zero (h : SpelledIn n s before after)
    (other : ∃ c ∈ before, Text.isNumberBlank c = false) :
    Number.ofText s = .zero := by
  rw [Number.ofText, h.scan_behind_other_space other]

end SpelledIn

/-- A text that is a numeral up to white space is read as this numeral, to its
end, if there are only blanks in front of it; two such texts are compared as
what they spell.  Behind other white space the numeral is not found, and the
text is zero. -/
theorem numeric_text_read_whole_behind_blanks (s : String) :
    (Number.isSpelledBy s = true ↔ ∃ before n after,
      SpelledIn n s before after) ∧
    ∀ n before after, SpelledIn n s before after →
      ((∀ c ∈ before, Text.isNumberBlank c = true) →
        scan (s.toList.dropWhile Text.isNumberBlank) = some (n, after) ∧
        Number.ofText s = n.value ∧
        ∀ t k before' after', SpelledIn k t before' after' →
        (∀ c ∈ before', Text.isNumberBlank c = true) →
          ∀ (op : Comparison) (template : String) (memory : Nat),
            op.holds (.text s) (.text t) template memory =
              .ok (op.ofNumbers n.value k.value)) ∧
      ((∃ c ∈ before, Text.isNumberBlank c = false) →
        scan (s.toList.dropWhile Text.isNumberBlank) = none ∧
        Number.ofText s = .zero) := by
  refine ⟨isSpelledBy_iff, ?_⟩
  intro n before after h
  constructor
  · intro blank
    refine ⟨h.scan_behind_blanks blank, h.ofText_eq blank, ?_⟩
    intro t k before' after' h' blank' op template memory
    have left : (Value.text s).isNumeric = true :=
      isSpelledBy_iff.2 ⟨before, n, after, h⟩
    have right : (Value.text t).isNumeric = true :=
      isSpelledBy_iff.2 ⟨before', k, after', h'⟩
    rw [Comparison.holds, left,
      right, ← h.ofText_eq blank, ← h'.ofText_eq blank']
    rfl
  · intro other
    exact ⟨h.scan_behind_other_space other, h.ofText_eq_zero other⟩

theorem minus_five_read_whole :
    let five : Numeral := ⟨some '-', ['5'], false, [], none⟩
    SpelledIn five "\t-5\u00a0" ['\t'] ['\u00a0'] ∧
    Number.ofText "\t-5\u00a0" = five.value := by
  intro five
  have spelled : SpelledIn five "\t-5\u00a0" ['\t'] ['\u00a0'] :=
    ⟨by decide, List.forall_mem_singleton.2 rfl,
      List.forall_mem_singleton.2 rfl, by decide⟩
  obtain ⟨blank, -⟩ :=
    (numeric_text_read_whole_behind_blanks "\t-5\u00a0").2 five _ _ spelled
  exact ⟨spelled, (blank (List.forall_mem_singleton.2 rfl)).2.1⟩

/-- Five behind a no-break space looks numeric, and is compared as zero. -/
theorem five_behind_no_break_space_not_found :
    Number.isSpelledBy "\u00a05" = true ∧ Number.isSpelledBy "5" = true ∧
      scan ("\u00a05".toList.dropWhile Text.isNumberBlank) = none ∧
      Comparison.eq.holds (.text "\u00a05") (.text "5") "%.6g" 0 =
        .ok false := by
  decide +kernel

end Numeral

end Awk
