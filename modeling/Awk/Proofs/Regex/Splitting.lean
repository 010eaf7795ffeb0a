import Awk.Proofs.Regex.Substitution

/-!
# Replacing at the places where a text is cut

Cutting goes through the matches of a pattern in one pass, while replacing
searches anew behind each match.  As long as no match is empty both see the same
spans, so that replacing all matches gives the pieces joined by the replacement.
-/

namespace Awk.Regex

theorem fillReplacement_plain (matched : List Char) {replacement : List Char}
    (plain : ∀ c ∈ replacement, c ≠ '&' ∧ c ≠ '\\') :
    fillReplacement matched replacement = replacement := by
  induction replacement with
  | nil => rfl
  | cons c rest ih =>
      obtain ⟨⟨ampersand, backslash⟩, others⟩ := List.forall_mem_cons.1 plain
      rw [fillReplacement, if_neg ampersand, ih others]
      · intro _ h
        exact absurd h backslash
      · intro _ h
        exact absurd h backslash

theorem cutAt_ne_nil (text : Array Char) (pos : Nat) (spans : List Span) :
    cutAt text pos spans ≠ [] := by
  induction spans generalizing pos with
  | nil => simp [cutAt]
  | cons m rest ih =>
      rw [cutAt]
      split
      · exact ih pos
      · simp

theorem length_cutAt (text : Array Char) (pos : Nat) {spans : List Span}
    (solid : ∀ m ∈ spans, m.start ≠ m.stop) :
    (cutAt text pos spans).length = spans.length + 1 := by
  induction spans generalizing pos with
  | nil => rfl
  | cons m rest ih =>
      obtain ⟨here, others⟩ := List.forall_mem_cons.1 solid
      rw [cutAt, if_neg here, List.length_cons, ih m.stop others,
        List.length_cons]

/-- The pieces joined by a plain replacement are the text with the spans
rewritten. -/
theorem intercalate_cutAt {replacement : List Char}
    (plain : ∀ c ∈ replacement, c ≠ '&' ∧ c ≠ '\\') (text : Array Char)
    (pos : Nat) {spans : List Span} (solid : ∀ m ∈ spans, m.start ≠ m.stop) :
    replacement.intercalate (cutAt text pos spans) =
      rewriteFrom replacement text pos spans := by
  induction spans generalizing pos with
  | nil => simp [cutAt, rewriteFrom]
  | cons m rest ih =>
      obtain ⟨here, others⟩ := List.forall_mem_cons.1 solid
      rw [cutAt, if_neg here,
        List.intercalate_cons_of_ne_nil (cutAt_ne_nil text m.stop rest),
        ih m.stop others, rewriteFrom, fillReplacement_plain _ plain]

/-- The matches of one pass are what replacing finds by searching anew behind
each of them. -/
theorem Pattern.matchesFrom_replaced (p : Pattern) (text : Array Char)
    {fuel pos : Nat} (last : Option Nat) (enough : text.size + 1 ≤ fuel + pos)
    (solid : ∀ m ∈ p.matchesFrom text fuel pos false, m.start ≠ m.stop) :
    Replaced (p.searchSpan text) text.size true pos last
      (p.matchesFrom text fuel pos false) := by
  induction fuel generalizing pos last with
  | zero => exact .behind (by omega)
  | succ fuel ih =>
      rw [matchesFrom] at solid ⊢
      cases searched : p.searchUpTo text (text.size + 1 - pos) pos false with
      | none =>
          by_cases here : pos ≤ text.size
          · exact .missed here
              (by rw [searchSpan, search?, searched, Option.map_none])
          · exact .behind (by omega)
      | some m =>
          simp only [searched] at solid ⊢
          obtain ⟨moved, others⟩ := List.forall_mem_cons.1 solid
          have here : pos ≤ text.size := by
            by_contra behind
            rw [show text.size + 1 - pos = 0 by omega] at searched
            contradiction
          obtain ⟨low, middle, -⟩ := searchUpTo_whole searched (by omega)
          have goes_on : (m.whole.start == m.whole.stop) = false := by
            simpa using moved
          have next : m.whole.next = m.whole.stop := if_neg moved
          rw [goes_on] at others ⊢
          refine .again here
            (by rw [searchSpan, search?, searched, Option.map_some])
            (fun h => moved h.1) rfl ?_
          rw [next]
          exact ih (some m.whole.stop) (by omega) others

theorem Pattern.matches_replaced (p : Pattern) (text : Array Char)
    (solid : ∀ m ∈ p.matches text, m.start ≠ m.stop) :
    Replaced (p.searchSpan text) text.size true 0 none (p.matches text) :=
  p.matchesFrom_replaced text none (by omega) solid

/-- Replacing every match by a replacement without ampersands and backslashes
gives the pieces of the text joined by the replacement, and as many replacements
as there are gaps between the pieces. -/
theorem substitute_eq_join_split (p : Pattern) (replacement text : String)
    (nonempty : text ≠ "") (solid : ∀ m ∈ p.matches text.toList.toArray,
      m.start ≠ m.stop) (plain : ∀ c ∈ replacement.toList, c ≠ '&' ∧ c ≠ '\\') :
    (p.substitute replacement text true).1 =
      replacement.intercalate (p.split text) ∧
      (p.substitute replacement text true).2 + 1 = (p.split text).length := by
  obtain ⟨spans, replaced, same⟩ :=
    substitute_replaced replacement.toList true
      (p.searchSpan_inside text.toList.toArray)
  obtain rfl := replaced.unique (p.matches_replaced _ solid)
  have changed : p.substitute replacement text true =
      (String.ofList (rewriteFrom replacement.toList text.toList.toArray 0
        (p.matches text.toList.toArray)),
        (p.matches text.toList.toArray).length) := by
    rw [Pattern.substitute]
    exact congrArg (fun r : List Char × Nat => (String.ofList r.1, r.2)) same
  have pieces :
      p.split text =
        (cutAt text.toList.toArray 0 (p.matches text.toList.toArray)).map
        String.ofList :=
    if_neg nonempty
  rw [changed, pieces]
  constructor
  · rw [← String.toList_inj, String.toList_intercalate, List.map_map,
      String.toList_ofList, ← intercalate_cutAt plain _ 0 solid]
    simp
  · rw [List.length_map, length_cutAt _ 0 solid]

def Pattern.ofChar (c : Char) : Pattern :=
  ⟨.chars (.single c.toNat .exact false), 0⟩

/-- Commas at both ends of a text and one right behind another. -/
theorem commas_replaced_where_cut :
    (∀ m ∈ (Pattern.ofChar ',').matches ",a,,b,".toList.toArray,
      m.start ≠ m.stop) ∧
      (Pattern.ofChar ',').split ",a,,b," = ["", "a", "", "b", ""] ∧
      ((Pattern.ofChar ',').substitute "; " ",a,,b," true).1 =
        "; ".intercalate ["", "a", "", "b", ""] ∧
      ((Pattern.ofChar ',').substitute "; " ",a,,b," true).2 + 1 = 5 := by
  have solid : ∀ m ∈ (Pattern.ofChar ',').matches ",a,,b,".toList.toArray,
      m.start ≠ m.stop := by decide
  have pieces : (Pattern.ofChar ',').split ",a,,b," =
      ["", "a", "", "b", ""] := by decide
  have joined :=
    substitute_eq_join_split (Pattern.ofChar ',') "; " ",a,,b,"
      (by decide) solid (by simp)
  rw [pieces] at joined
  exact ⟨solid, pieces, joined⟩

end Awk.Regex
