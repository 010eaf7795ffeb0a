import Awk.Proofs.Records.Cut

/-!
# Cutting at a character

A text that is cut at a character is its pieces joined with the character, and
the character is in none of them.  As a separator of fields every character but
the space cuts in this way.  The backslash does so for a reason of its own: it
is tried as a pattern, and it is none.
-/

namespace Awk

namespace Text

variable {c : Char}

theorem not_mem_splitOnFrom {piece : List Char} (clean : c ∉ piece)
    (cs : List Char) :
    ∀ p ∈ splitOnFrom c piece cs, c ∉ p := by
  induction cs generalizing piece with
  | nil =>
      intro p isPiece
      obtain rfl : p = piece.reverse := by simpa [splitOnFrom] using isPiece
      simpa using clean
  | cons x rest ih =>
      by_cases here : x = c
      · rw [splitOnFrom, if_pos here, List.forall_mem_cons]
        exact ⟨by simpa using clean, ih List.not_mem_nil⟩
      · rw [splitOnFrom, if_neg here]
        exact ih (List.not_mem_cons_of_ne_of_not_mem (Ne.symm here) clean)

theorem not_mem_splitOn {cs piece : List Char}
    (isPiece : piece ∈ splitOn c cs) : c ∉ piece :=
  not_mem_splitOnFrom List.not_mem_nil cs piece isPiece

theorem splitOnFrom_eq (c : Char) (piece cs : List Char) :
    splitOnFrom c piece cs = cs.splitOnPPrepend (· == c) piece := by
  induction cs generalizing piece with
  | nil => rfl
  | cons x rest ih =>
      rw [splitOnFrom, List.splitOnPPrepend_cons_eq_if, ih, ih]
      simp

theorem splitOn_eq (c : Char) (cs : List Char) : splitOn c cs = cs.splitOn c :=
  splitOnFrom_eq c [] cs

theorem split_literal {text : String} (written : text ≠ "") :
    (Splitter.literal [c]).split text =
      (splitOn c text.toList).map String.ofList := by
  rw [Splitter.split, if_neg written]

theorem split_literal_empty : (Splitter.literal [c]).split "" = [] := if_pos rfl

theorem not_mem_split {text piece : String}
    (isPiece : piece ∈ (Splitter.literal [c]).split text) :
    c ∉ piece.toList := by
  by_cases blank : text = ""
  · rw [blank, split_literal_empty] at isPiece
    contradiction
  · rw [split_literal blank] at isPiece
    obtain ⟨cs, among, rfl⟩ := List.mem_map.1 isPiece
    rw [String.toList_ofList]
    exact not_mem_splitOn among

theorem intercalate_split (c : Char) (text : String) :
    (String.singleton c).intercalate ((Splitter.literal [c]).split text) =
      text := by
  by_cases blank : text = ""
  · rw [blank, split_literal_empty]
    rfl
  · rw [← String.toList_inj, String.toList_intercalate, split_literal blank,
      List.map_map, splitOn_eq]
    simp [Function.comp_def, List.intercalate_splitOn]

end Text

/-! ## Characters as separators of fields -/

theorem compile_backslash : Regex.compile (String.singleton '\\') =
    .error .malformed := by rfl

theorem ofFieldSeparator?_singleton {c : Char} (space : c ≠ ' ')
    (backslash : c ≠ '\\') :
    Splitter.ofFieldSeparator? (String.singleton c) = some (.literal [c]) := by
  unfold Splitter.ofFieldSeparator?
  rw [String.toList_singleton]
  split <;> simp_all

namespace Exec

variable {m : Machine}

theorem regex_backslash (coherent : m.regexes.Coherent) :
    regex (String.singleton '\\') m = .ok (.error .malformed) m := by
  cases looked : m.regexes.lookup { text := String.singleton '\\' } with
  | ok entry =>
      have compiled : Regex.compile (String.singleton '\\') = .ok entry.1 :=
        (coherent.lookup looked).1
      rw [compile_backslash] at compiled
      contradiction
  | error e =>
      have same := (lookup_error looked).symm.trans compile_backslash
      cases same
      exact regex_error looked

theorem splitWith_singleton (coherent : m.regexes.Coherent) {c : Char}
    (space : c ≠ ' ') (text : String) :
    splitWith text (String.singleton c) m =
      .ok ((Splitter.literal [c]).split text) m := by
  unfold splitWith
  by_cases blank : text = ""
  · rw [if_pos blank, blank, Text.split_literal_empty]
    rfl
  rw [if_neg blank]
  by_cases backslash : c = '\\'
  · subst backslash
    change (regex (String.singleton '\\') >>= _) m = _
    rw [bind_ok (regex_backslash coherent)]
    rfl
  · simp only [ofFieldSeparator?_singleton space backslash]
    rfl

end Exec

end Awk
