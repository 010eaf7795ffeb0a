import Awk.Machine.Input
import Awk.Proofs.Text.Strip

/-!
# Cutting into paragraphs

An empty separator of records cuts at runs of two or more newlines.
`Paragraphed` takes a text apart that neither starts nor ends with a newline,
from its front on: a character is followed by another one, by a single newline
or by a gap.  Where the paragraphs are joined with two newlines each, only the
length of the gaps is lost, so that cutting once more changes nothing.
-/

namespace Awk.Text

def shortenBreaks : List Char → List Char
  | [] => []
  | c :: rest =>
      if c = '\n' ∧ rest.take 2 = ['\n', '\n'] then shortenBreaks rest
        else c :: shortenBreaks rest

structure IsParagraph (cs : List Char) : Prop where
  filled : cs ≠ []
  first : cs.head? ≠ some '\n'
  last : cs.getLast? ≠ some '\n'
  single : ¬['\n', '\n'] <:+: cs

namespace IsParagraph

variable {c : Char} {p : List Char}

theorem infix_cons (h : ['\n', '\n'] <:+: c :: p) :
    c = '\n' ∧ p.head? = some '\n' ∨ ['\n', '\n'] <:+: p := by
  rcases List.infix_cons_iff.1 h with front | inside
  · obtain ⟨rest, same⟩ := front
    obtain ⟨rfl, rfl⟩ := List.cons.inj same
    exact .inl ⟨rfl, rfl⟩
  · exact .inr inside

theorem singleton (letter : c ≠ '\n') : IsParagraph [c] where
  filled := by simp
  first := by simpa using letter
  last := by simpa using letter
  single h := by
    rcases infix_cons h with ⟨-, first⟩ | inside
    · simp at first
    · simp at inside

theorem letter (h : IsParagraph p) (letter : c ≠ '\n') :
    IsParagraph (c :: p) where
  filled := by simp
  first := by simpa using letter
  last := by
    have last := h.last
    rwa [← List.getLast?_cons_of_ne_nil h.filled] at last
  single doubled := by
    rcases infix_cons doubled with ⟨newline, -⟩ | inside
    · exact letter newline
    · exact h.single inside

theorem line (h : IsParagraph p) (letter : c ≠ '\n') :
    IsParagraph (c :: '\n' :: p) where
  filled := by simp
  first := by simpa using letter
  last := by
    have last := h.last
    rwa [List.getLast?_cons_cons, List.getLast?_cons_of_ne_nil h.filled]
  single doubled := by
    rcases infix_cons doubled with ⟨newline, -⟩ | inside
    · exact letter newline
    · rcases infix_cons inside with ⟨-, first⟩ | inside
      · exact h.first first
      · exact h.single inside

end IsParagraph

inductive Paragraphed : List Char → List (List Char) → Prop
  | last {c : Char} (letter : c ≠ '\n') : Paragraphed [c] [[c]]
  | letter {c : Char} {cs p : List Char} {ps : List (List Char)}
      (letter : c ≠ '\n') (later : Paragraphed cs (p :: ps)) :
      Paragraphed (c :: cs) ((c :: p) :: ps)
  | line {c : Char} {cs p : List Char} {ps : List (List Char)}
      (letter : c ≠ '\n') (later : Paragraphed cs (p :: ps)) :
      Paragraphed (c :: '\n' :: cs) ((c :: '\n' :: p) :: ps)
  | gap {c : Char} {cs : List Char} {ps : List (List Char)} (letter : c ≠ '\n')
      (more : Nat) (later : Paragraphed cs ps) :
      Paragraphed (c :: '\n' :: '\n' :: (List.replicate more '\n' ++ cs))
        ([c] :: ps)

namespace Paragraphed

variable {cs : List Char} {ps : List (List Char)}

theorem ne_nil (h : Paragraphed cs ps) : ps ≠ [] := by
  cases h <;> simp

theorem first (h : Paragraphed cs ps) : ∃ c rest, cs = c :: rest ∧
    c ≠ '\n' := by
  cases h with
  | last letter => exact ⟨_, _, rfl, letter⟩
  | letter letter later => exact ⟨_, _, rfl, letter⟩
  | line letter later => exact ⟨_, _, rfl, letter⟩
  | gap letter more later => exact ⟨_, _, rfl, letter⟩

theorem getLast?_ne (h : Paragraphed cs ps) : cs.getLast? ≠ some '\n' := by
  induction h with
  | last letter => simpa using letter
  | letter letter later ih =>
      obtain ⟨d, rest, rfl, -⟩ := later.first
      simpa using ih
  | line letter later ih =>
      obtain ⟨d, rest, rfl, -⟩ := later.first
      simpa using ih
  | gap letter more later ih =>
      obtain ⟨d, rest, rfl, -⟩ := later.first
      simpa [List.getLast?_cons, List.getLast?_append] using ih

theorem behind_letter {c : Char} (letter : c ≠ '\n') (n : Nat)
    (later : Paragraphed cs ps) :
    ∃ ps, Paragraphed (c :: (List.replicate n '\n' ++ cs)) ps := by
  obtain ⟨p, rest, rfl⟩ := List.exists_cons_of_ne_nil later.ne_nil
  match n with
  | 0 => exact ⟨_, .letter letter later⟩
  | 1 => exact ⟨_, .line letter later⟩
  | n + 2 => exact ⟨_, .gap letter n later⟩

theorem exists_behind_newlines {cs : List Char} (filled : cs ≠ [])
    (last : cs.getLast? ≠ some '\n') :
    ∃ n rest ps, cs = List.replicate n '\n' ++ rest ∧ Paragraphed rest ps := by
  induction cs with
  | nil => contradiction
  | cons c cs ih =>
      cases cs with
      | nil => exact ⟨0, [c], _, rfl, .last (by simpa using last)⟩
      | cons d cs =>
          obtain ⟨n, rest, ps, same, later⟩ :=
            ih (by simp) (by simpa using last)
          rw [same]
          by_cases newline : c = '\n'
          · exact ⟨n + 1, rest, ps, by rw [newline]; rfl, later⟩
          · obtain ⟨ps, whole⟩ := behind_letter newline n later
            exact ⟨0, _, ps, rfl, whole⟩

theorem exists_of_ends {cs : List Char} (filled : cs ≠ [])
    (first : cs.head? ≠ some '\n') (last : cs.getLast? ≠ some '\n') :
    ∃ ps, Paragraphed cs ps := by
  obtain ⟨n, rest, ps, rfl, found⟩ := exists_behind_newlines filled last
  cases n with
  | zero => exact ⟨ps, found⟩
  | succ n => simp [List.replicate_succ] at first

/-! ## What paragraphs are -/

theorem isParagraph (h : Paragraphed cs ps) : ∀ p ∈ ps, IsParagraph p := by
  induction h with
  | last letter => simpa using IsParagraph.singleton letter
  | letter letter later ih =>
      rw [List.forall_mem_cons] at ih ⊢
      exact ⟨ih.1.letter letter, ih.2⟩
  | line letter later ih =>
      rw [List.forall_mem_cons] at ih ⊢
      exact ⟨ih.1.line letter, ih.2⟩
  | gap letter more later ih =>
      rw [List.forall_mem_cons]
      exact ⟨.singleton letter, ih⟩

theorem intercalate_cons_cons (sep : List Char) (c : Char) (p : List Char)
    (ps : List (List Char)) :
    sep.intercalate ((c :: p) :: ps) = c :: sep.intercalate (p :: ps) := by
  cases ps <;> simp [List.intercalate]

theorem intercalate_gap {c : Char} (filled : ps ≠ []) :
    ['\n', '\n'].intercalate ([c] :: ps) = c :: '\n' :: '\n' ::
      ['\n', '\n'].intercalate ps := by
  rw [List.intercalate_cons_of_ne_nil filled]
  rfl

theorem shortenBreaks_letter {c : Char} (letter : c ≠ '\n') (cs : List Char) :
    shortenBreaks (c :: cs) = c :: shortenBreaks cs := by
  rw [shortenBreaks, if_neg fun both => letter both.1]

theorem shortenBreaks_newlines {c : Char} (letter : c ≠ '\n') (cs : List Char)
    (n : Nat) :
    shortenBreaks (List.replicate n '\n' ++ c :: cs) =
      List.replicate (min n 2) '\n' ++ shortenBreaks (c :: cs) := by
  induction n with
  | zero => rfl
  | succ n ih =>
      rw [List.replicate_succ, List.cons_append, shortenBreaks, ih]
      match n with
      | 0 => simp [letter]
      | 1 => simp [letter, List.replicate]
      | n + 2 => simp [List.replicate_succ]

theorem intercalate_eq (h : Paragraphed cs ps) :
    ['\n', '\n'].intercalate ps = shortenBreaks cs := by
  induction h with
  | last letter => simp [shortenBreaks]
  | letter letter later ih =>
      rw [intercalate_cons_cons, shortenBreaks_letter letter, ih]
  | line letter later ih =>
      obtain ⟨d, rest, rfl, other⟩ := later.first
      have newline := shortenBreaks_newlines other rest 1
      rw [intercalate_cons_cons, intercalate_cons_cons,
        shortenBreaks_letter letter, ih]
      exact congrArg _ newline.symm
  | gap letter more later ih =>
      obtain ⟨d, rest, rfl, other⟩ := later.first
      have newlines := shortenBreaks_newlines other rest (more + 2)
      rw [intercalate_gap later.ne_nil, shortenBreaks_letter letter, ih]
      rw [Nat.min_eq_right (by omega)] at newlines
      exact congrArg _ newlines.symm

theorem joined (h : Paragraphed cs ps) :
    Paragraphed (['\n', '\n'].intercalate ps) ps := by
  induction h with
  | last letter => exact .last letter
  | letter letter later ih =>
      rw [intercalate_cons_cons]
      exact .letter letter ih
  | line letter later ih =>
      rw [intercalate_cons_cons, intercalate_cons_cons]
      exact .line letter ih
  | gap letter more later ih =>
      rw [intercalate_gap later.ne_nil]
      exact .gap letter 0 ih

/-! ## The cut -/

theorem paragraphsFrom_newlines (piece : List Char) (n : Nat) {c : Char}
    (letter : c ≠ '\n') (rest : List Char) :
    paragraphsFrom true piece (List.replicate n '\n' ++ c :: rest) =
      paragraphsFrom false piece (c :: rest) := by
  induction n with
  | zero => simp [paragraphsFrom, letter]
  | succ n ih =>
      rw [List.replicate_succ, List.cons_append, paragraphsFrom, if_pos rfl,
        if_pos rfl, ih]

theorem paragraphsFrom_eq (h : Paragraphed cs ps) (piece : List Char) :
    paragraphsFrom false piece cs = ps.modifyHead (piece.reverse ++ ·) := by
  -- What was read before goes in front of the first paragraph.
  induction h generalizing piece with
  | last letter => simp [paragraphsFrom, letter]
  | letter letter later ih =>
      rw [paragraphsFrom, if_neg letter, ih]
      simp
  | line letter later ih =>
      obtain ⟨d, rest, rfl, other⟩ := later.first
      rw [paragraphsFrom, if_neg letter, paragraphsFrom, if_pos rfl,
        if_neg (by simp), if_neg (by simpa using other), ih]
      simp
  | gap letter more later ih =>
      obtain ⟨d, rest, rfl, other⟩ := later.first
      obtain ⟨p, ps, rfl⟩ := List.exists_cons_of_ne_nil later.ne_nil
      have behind := paragraphsFrom_newlines [] (more + 1) other rest
      rw [List.replicate_succ, List.cons_append, ih] at behind
      rw [paragraphsFrom, if_neg letter, paragraphsFrom, if_pos rfl,
        if_neg (by simp), if_pos (by simp), behind]
      simp

end Paragraphed

/-! ## Records -/

theorem paragraphs_of_strip {cs : List Char} {ps : List (List Char)}
    (h : Paragraphed (strip (· == '\n') cs) ps) :
    paragraphs cs = ps := by
  obtain ⟨c, rest, same, -⟩ := h.first
  obtain ⟨p, ps, rfl⟩ := List.exists_cons_of_ne_nil h.ne_nil
  rw [same] at h
  rw [paragraphs, same]
  exact h.paragraphsFrom_eq []

theorem Paragraphed.strip_eq {cs : List Char} {ps : List (List Char)}
    (h : Paragraphed cs ps) :
    strip (· == '\n') cs = cs := by
  obtain ⟨c, rest, rfl, letter⟩ := h.first
  apply strip_eq_self
  · simpa using letter
  · intro d last
    simp only [beq_eq_false_iff_ne]
    rintro rfl
    exact h.getLast?_ne last

theorem strip_newlines_ends (cs : List Char) :
    (strip (· == '\n') cs).head? ≠ some '\n' ∧
    (strip (· == '\n') cs).getLast? ≠ some '\n' := by
  constructor
  · intro first
    simpa using head?_strip (· == '\n') cs '\n' first
  · intro last
    simpa using getLast?_strip (· == '\n') cs '\n' last

theorem paragraphs_laws {cs body : List Char}
    (stripped : strip (· == '\n') cs = body) :
    (∀ p ∈ paragraphs cs, IsParagraph p) ∧
    ['\n', '\n'].intercalate (paragraphs cs) = shortenBreaks body ∧
      paragraphs (['\n', '\n'].intercalate (paragraphs cs)) =
        paragraphs cs := by
  by_cases filled : body = []
  · have none : paragraphs cs = [] := by rw [paragraphs, stripped, filled]
    rw [none, filled]
    exact ⟨by simp, rfl, rfl⟩
  · obtain ⟨ps, found⟩ : ∃ ps, Paragraphed body ps := by
      obtain ⟨first, last⟩ := strip_newlines_ends cs
      rw [stripped] at first last
      exact Paragraphed.exists_of_ends filled first last
    rw [paragraphs_of_strip (stripped ▸ found)]
    refine ⟨found.isParagraph, found.intercalate_eq, paragraphs_of_strip ?_⟩
    rw [found.joined.strip_eq]
    exact found.joined

theorem newline_parts (cs : List Char) :
    ∃ before after, cs = List.replicate before '\n' ++ strip (· == '\n') cs ++
      List.replicate after '\n' := by
  obtain ⟨before, after, parted, front, back⟩ := strip_parts (· == '\n') cs
  have allBefore : before = List.replicate before.length '\n' :=
    List.eq_replicate_iff.2 ⟨rfl, by simpa using front⟩
  have allAfter : after = List.replicate after.length '\n' :=
    List.eq_replicate_iff.2 ⟨rfl, by simpa using back⟩
  refine ⟨before.length, after.length, ?_⟩
  rw [← allBefore, ← allAfter]
  exact parted

theorem recordsWith_empty (compile : String →
    Except Regex.PatternError Regex.Pattern) (text : String) :
    Splitter.recordsWith compile text "" = .ok (Splitter.paragraphs text) := by
  by_cases empty : text = ""
  · subst empty
    rfl
  · rw [Splitter.recordsWith, if_neg empty, if_pos rfl]

theorem exec_recordsWith_empty (text : String) (m : Machine) :
    Exec.recordsWith text "" m = .ok (Splitter.paragraphs text) m := by
  unfold Exec.recordsWith
  by_cases empty : text = ""
  · subst empty
    rfl
  · rw [if_neg empty]
    rfl

/-- An empty separator cuts a text into paragraphs.  Joined with two newlines
each, they are the text without the newlines at its ends and with every longer
run of newlines shortened to two, and this text is cut into the same paragraphs.
-/
theorem paragraphs_canonical (compile : String →
    Except Regex.PatternError Regex.Pattern) (text : String) :
    ∃ (records : List String) (before after : Nat) (body : List Char),
      Splitter.recordsWith compile text "" = .ok records ∧
      (∀ m, Exec.recordsWith text "" m = .ok records m) ∧
      (∀ r ∈ records, r ≠ "" ∧ r.toList.head? ≠ some '\n' ∧
        r.toList.getLast? ≠ some '\n' ∧
        ¬['\n', '\n'] <:+: r.toList) ∧
      text.toList = List.replicate before '\n' ++ body ++
        List.replicate after '\n' ∧
      body.head? ≠ some '\n' ∧ body.getLast? ≠ some '\n' ∧
      ("\n\n".intercalate records).toList = shortenBreaks body ∧
      Splitter.recordsWith compile ("\n\n".intercalate records) "" =
        .ok records := by
  obtain ⟨before, after, parted⟩ := newline_parts text.toList
  obtain ⟨first, last⟩ := strip_newlines_ends text.toList
  obtain ⟨each, joined, again⟩ :=
    paragraphs_laws (rfl : strip (· == '\n') text.toList = _)
  have chars : ("\n\n".intercalate (Splitter.paragraphs text)).toList =
      ['\n', '\n'].intercalate (paragraphs text.toList) := by
    rw [String.toList_intercalate, Splitter.paragraphs, List.map_map]
    simp [Function.comp_def]
  refine ⟨_, before, after, _, recordsWith_empty compile text,
    exec_recordsWith_empty text, ?_, parted, first, last, ?_, ?_⟩
  · intro r member
    obtain ⟨p, among, rfl⟩ := List.mem_map.1 member
    obtain ⟨filled, first, last, single⟩ := each p among
    rw [String.toList_ofList]
    exact ⟨by simpa using filled, first, last, single⟩
  · rw [chars, joined]
  · rw [recordsWith_empty, Splitter.paragraphs, chars, again]
    rfl

end Awk.Text
