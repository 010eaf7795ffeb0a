import Awk.Text.Blank
import Mathlib.Data.List.DropRight

/-!
# Taking characters away at both ends

What is taken away stands in front of the rest and behind it, and the rest
neither starts nor ends with a character that is to be taken away.
-/

namespace Awk.Text

variable {p : Char → Bool} {cs : List Char}

theorem strip_eq_rdropWhile (p : Char → Bool) (cs : List Char) :
    strip p cs = (cs.dropWhile p).rdropWhile p := rfl

theorem strip_parts (p : Char → Bool) (cs : List Char) :
    ∃ before after, cs = before ++ strip p cs ++ after ∧
    (∀ c ∈ before, p c = true) ∧ ∀ c ∈ after, p c = true := by
  refine ⟨cs.takeWhile p, (cs.dropWhile p).rtakeWhile p, ?_, ?_, ?_⟩
  · rw [strip_eq_rdropWhile, List.append_assoc,
      List.rdropWhile_append_rtakeWhile, List.takeWhile_append_dropWhile]
  · exact fun c => List.mem_takeWhile_imp
  · exact fun c => List.mem_rtakeWhile_imp

theorem head?_strip (p : Char → Bool) (cs : List Char) :
    ∀ c ∈ (strip p cs).head?, p c = false := by
  intro c first
  obtain ⟨rest, whole⟩ : strip p cs <+: cs.dropWhile p :=
    List.rdropWhile_prefix p _
  have kept := List.head?_dropWhile_not p cs
  rw [← whole, List.head?_append, Option.mem_def.1 first] at kept
  simpa using kept

theorem getLast?_strip (p : Char → Bool) (cs : List Char) :
    ∀ c ∈ (strip p cs).getLast?, p c = false := by
  intro c last
  obtain ⟨filled, rfl⟩ := List.mem_getLast?_eq_getLast last
  exact Bool.eq_false_iff.2 (List.rdropWhile_last_not p _ filled)

theorem strip_eq_self (first : ∀ c ∈ cs.head?, p c = false)
    (last : ∀ c ∈ cs.getLast?, p c = false) :
    strip p cs = cs := by
  have front : cs.dropWhile p = cs := by
    cases cs with
    | nil => rfl
    | cons c rest => simp [first c rfl]
  rw [strip_eq_rdropWhile, front, List.rdropWhile_eq_self_iff]
  intro filled
  simp [last (cs.getLast filled) (List.getLast_mem_getLast? filled)]

theorem strip_surrounded {before after : List Char}
    (front : ∀ c ∈ before, p c = true) (back : ∀ c ∈ after, p c = true) :
    strip p (before ++ cs ++ after) = strip p cs := by
  rw [strip_eq_rdropWhile, strip_eq_rdropWhile, List.append_assoc,
    List.dropWhile_append_of_pos front, List.dropWhile_append]
  split
  next empty =>
    have gone : after.dropWhile p = [] := List.dropWhile_eq_nil_iff.2 back
    rw [gone, List.isEmpty_iff.1 empty]
  next =>
    have behind : ∀ c ∈ after.reverse, p c = true := by simpa using back
    simp only [List.rdropWhile, List.reverse_append,
      List.dropWhile_append_of_pos behind]

/-! ## Runs in front of what stops them -/

theorem takeWhile_append_stop {t : List Char}
    (stop : ∀ c ∈ t.head?, p c = false) (cs : List Char) :
    (cs ++ t).takeWhile p = cs.takeWhile p := by
  induction cs with
  | nil => cases t <;> simp_all
  | cons c cs ih => simp [List.takeWhile_cons, ih]

theorem dropWhile_append_stop {t : List Char}
    (stop : ∀ c ∈ t.head?, p c = false) (cs : List Char) :
    (cs ++ t).dropWhile p = cs.dropWhile p ++ t := by
  induction cs with
  | nil => cases t <;> simp_all
  | cons c cs ih =>
      rw [List.cons_append, List.dropWhile_cons, List.dropWhile_cons]
      split
      · exact ih
      · rfl

end Awk.Text
