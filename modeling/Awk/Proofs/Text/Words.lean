import Awk.Machine.Record
import Awk.Proofs.Text.Strip
import Mathlib.Data.List.Basic

/-!
# Cutting at blanks

The default separator cuts a text into its words, the longest stretches without
blanks.  `Worded` takes a text apart from its front on, blank by blank and word
by word.  What the words are made of, where they stand and that there are no
others is then read off it.
-/

namespace Awk.Text

open Regex (Span)

/-- A stretch without blanks that is as long as can be: on either side of it is
a blank or an end of the text. -/
structure MaximalRun (blank : Char → Bool) (cs : List Char) (s : Span) :
    Prop where
  filled : s.start < s.stop
  inside : s.stop ≤ cs.length
  clean : ∀ i c, s.start ≤ i → i < s.stop → cs[i]? = some c → blank c = false
  before : ∀ i c, i + 1 = s.start → cs[i]? = some c → blank c = true
  after : ∀ c, cs[s.stop]? = some c → blank c = true

inductive Worded (blank : Char → Bool) : List Char → List (List Char) → Prop
  | done : Worded blank [] []
  | skip {x : Char} {rest : List Char} {words : List (List Char)}
      (isBlank : blank x = true) (later : Worded blank rest words) :
      Worded blank (x :: rest) words
  | last {word : List Char} (filled : word ≠ [])
      (clean : ∀ c ∈ word, blank c = false) : Worded blank word [word]
  | next {word : List Char} {x : Char} {rest : List Char}
      {words : List (List Char)} (filled : word ≠ [])
      (clean : ∀ c ∈ word, blank c = false) (isBlank : blank x = true)
      (later : Worded blank rest words) :
      Worded blank (word ++ x :: rest) (word :: words)

variable {blank : Char → Bool} {cs : List Char}

theorem Worded.skipAll {front : List Char} {words : List (List Char)}
    (blanks : ∀ c ∈ front, blank c = true) (h : Worded blank cs words) :
    Worded blank (front ++ cs) words := by
  induction front with
  | nil => exact h
  | cons x front ih =>
      rw [List.forall_mem_cons] at blanks
      exact .skip blanks.1 (ih blanks.2)

theorem Worded.concat {words : List (List Char)} {x : Char}
    (h : Worded blank cs words) (isBlank : blank x = true) :
    Worded blank (cs ++ [x]) words := by
  induction h with
  | done => exact .skip isBlank .done
  | skip other later ih => exact .skip other ih
  | last filled clean => exact .next filled clean isBlank .done
  | next filled clean other later ih =>
      rw [List.append_assoc]
      exact .next filled clean other ih

theorem Worded.append {words : List (List Char)} {back : List Char}
    (h : Worded blank cs words) (blanks : ∀ c ∈ back, blank c = true) :
    Worded blank (cs ++ back) words := by
  induction back generalizing cs with
  | nil => rwa [List.append_nil]
  | cons x back ih =>
      rw [List.forall_mem_cons] at blanks
      rw [List.append_cons]
      exact ih (h.concat blanks.1) blanks.2

theorem ended_of_cons {x : Char} {rest : List Char}
    (ended : ∀ c ∈ (x :: rest).getLast?, blank c = false) :
    ∀ c ∈ rest.getLast?, blank c = false := by
  intro c last
  refine ended c ?_
  rw [List.getLast?_cons, Option.mem_def.1 last]
  rfl

/--
The pieces of a text that does not end in a blank.  The current piece stands in
front of the text that is left, and it is empty only while a run of blanks is
being passed.
-/
theorem worded_splitOnRunsFrom (cs : List Char)
    (ended : ∀ c ∈ cs.getLast?, blank c = false) :
    (∀ piece, piece ≠ [] → (∀ c ∈ piece, blank c = false) →
      Worded blank (piece.reverse ++ cs)
        (splitOnRunsFrom blank false piece cs)) ∧
    (cs ≠ [] → Worded blank cs (splitOnRunsFrom blank true [] cs)) := by
  induction cs with
  | nil =>
      refine ⟨fun piece filled clean => ?_, fun empty => absurd rfl empty⟩
      rw [List.append_nil, splitOnRunsFrom]
      exact .last (by simpa using filled) (by simpa using clean)
  | cons x rest ih =>
      obtain ⟨inside, behind⟩ := ih (ended_of_cons ended)
      -- A blank is not the last character.
      have more (isBlank : blank x = true) : rest ≠ [] := by
        rintro rfl
        have clean := ended x rfl
        rw [isBlank] at clean
        contradiction
      refine ⟨fun piece filled clean => ?_, fun _ => ?_⟩
      · rw [splitOnRunsFrom]
        split
        next isBlank =>
          exact .next (by simpa using filled) (by simpa using clean) isBlank
            (behind (more isBlank))
        next isClean =>
          have longer : ∀ c ∈ x :: piece, blank c = false := by
            simpa [isClean] using clean
          have grown := inside (x :: piece) (by simp) longer
          rwa [List.reverse_cons, List.append_assoc] at grown
      · rw [splitOnRunsFrom]
        split
        next isBlank => exact .skip isBlank (behind (more isBlank))
        next isClean => exact inside [x] (by simp) (by simpa using isClean)

/-- Stripping and cutting at runs of blanks together give the words. -/
theorem worded_words (blank : Char → Bool) (cs : List Char) :
    Worded blank cs (words blank cs) := by
  obtain ⟨front, back, parted, before, after⟩ := strip_parts blank cs
  have stripped : Worded blank (strip blank cs) (words blank cs) := by
    have first := head?_strip blank cs
    have ended := getLast?_strip blank cs
    rw [words]
    cases left : strip blank cs with
    | nil => exact .done
    | cons x rest =>
        rw [left] at first ended
        have clean : blank x = false := first x rfl
        have pieces := (worded_splitOnRunsFrom rest (ended_of_cons ended)).1 [x]
          (by simp) (by simpa using clean)
        simpa [splitOnRuns, splitOnRunsFrom, clean] using pieces
  have surrounded := (stripped.append after).skipAll before
  rwa [← List.append_assoc, ← parted] at surrounded

/-! ## Where words stand -/

section Positions

variable {front rest : List Char} {x : Char} {s : Span}

def shift (n : Nat) (s : Span) : Span := ⟨n + s.start, n + s.stop⟩

theorem getElem?_shift (front : List Char) (x : Char) (rest : List Char)
    (i : Nat) :
    (front ++ x :: rest)[front.length + 1 + i]? = rest[i]? := by
  rw [List.getElem?_append_right (by omega),
    show front.length + 1 + i - front.length = i +
      1 by omega, List.getElem?_cons_succ]

theorem extract_shift (front : List Char) (x : Char) (rest : List Char)
    (s : Span) :
    (front ++ x :: rest).extract (shift (front.length + 1) s).start
      (shift (front.length + 1) s).stop =
      rest.extract s.start s.stop := by
  have behind : (front ++ x :: rest).drop (front.length + 1 + s.start) =
      rest.drop s.start := by
    rw [List.drop_append, List.drop_eq_nil_of_le (by omega),
      show front.length + 1 + s.start - front.length = s.start + 1 by omega]
    rfl
  rw [List.extract_eq_take_drop, List.extract_eq_take_drop]
  simp only [shift, behind]
  congr 1
  omega

theorem maximalRun_shift (isBlank : blank x = true) :
    MaximalRun blank (front ++ x :: rest) (shift (front.length + 1) s) ↔
    MaximalRun blank rest s := by
  constructor
  · rintro ⟨filled, inside, clean, before, after⟩
    simp only [shift, List.length_append, List.length_cons] at *
    refine ⟨by omega, by omega, ?_, ?_, ?_⟩
    · intro i c low high here
      exact clean (front.length + 1 + i) c (by omega) (by omega)
        ((getElem?_shift front x rest i).trans here)
    · intro i c behind here
      exact before (front.length + 1 + i) c (by omega)
        ((getElem?_shift front x rest i).trans here)
    · intro c here
      exact after c ((getElem?_shift front x rest s.stop).trans here)
  · rintro ⟨filled, inside, clean, before, after⟩
    refine ⟨by simp only [shift]; omega, by
      simp only [shift, List.length_append, List.length_cons]; omega, ?_, ?_,
      ?_⟩
    · intro i c low high here
      simp only [shift] at low high
      obtain ⟨j, rfl⟩ :=
        Nat.exists_eq_add_of_le (by omega : front.length + 1 ≤ i)
      rw [getElem?_shift] at here
      exact clean j c (by omega) (by omega) here
    · intro i c behind here
      simp only [shift] at behind
      by_cases first : i = front.length
      · obtain rfl : x = c := by simpa [first] using here
        exact isBlank
      · obtain ⟨j, rfl⟩ :=
          Nat.exists_eq_add_of_le (by omega : front.length + 1 ≤ i)
        rw [getElem?_shift] at here
        exact before j c (by omega) here
    · intro c here
      rw [shift, getElem?_shift] at here
      exact after c here

theorem MaximalRun.apart (front : List Char)
    (run : MaximalRun blank (front ++ x :: rest) s) (isBlank : blank x = true) :
    s.stop ≤ front.length ∨ front.length < s.start := by
  by_cases low : s.stop ≤ front.length
  · exact .inl low
  · refine .inr (Nat.lt_of_not_le fun start => ?_)
    have clean := run.clean front.length x start (by omega) (by simp)
    rw [isBlank] at clean
    contradiction

theorem maximalRun_front (rest : List Char) (filled : front ≠ [])
    (clean : ∀ c ∈ front, blank c = false)
    (behind : ∀ c ∈ rest.head?, blank c = true) :
    MaximalRun blank (front ++ rest) s ∧ s.stop ≤ front.length ↔
    s = ⟨0, front.length⟩ := by
  have cleanAt (i : Nat) (inside : i < front.length) :
      ∃ c, (front ++ rest)[i]? = some c ∧ blank c = false :=
    ⟨front.get ⟨i, inside⟩, by simp [List.getElem?_append_left inside],
      clean _ (front.get_mem _)⟩
  constructor
  · rintro ⟨run, low⟩
    have start : s.start = 0 := by
      apply Nat.eq_zero_of_not_pos
      intro positive
      have filled := run.filled
      obtain ⟨c, here, isClean⟩ := cleanAt (s.start - 1) (by omega)
      have isBlank := run.before (s.start - 1) c (by omega) here
      rw [isClean] at isBlank
      contradiction
    have stop : s.stop = front.length := by
      apply Nat.le_antisymm low
      apply Nat.le_of_not_lt
      intro high
      obtain ⟨c, here, isClean⟩ := cleanAt s.stop high
      have isBlank := run.after c here
      rw [isClean] at isBlank
      contradiction
    cases s
    simp only at start stop
    rw [start, stop]
  · rintro rfl
    refine ⟨⟨List.length_pos_iff.2 filled, by simp, ?_, ?_, ?_⟩, Nat.le_refl _⟩
    · intro i c _ high here
      rw [List.getElem?_append_left high] at here
      exact clean c (List.mem_of_getElem? here)
    · intro i c impossible
      contradiction
    · intro c here
      rw [List.getElem?_append_right (Nat.le_refl _),
        Nat.sub_self, ← List.head?_eq_getElem?] at here
      exact behind c here

/-- The spans are the maximal runs of a text, from left to right. -/
structure Spans (blank : Char → Bool) (cs : List Char) (spans : List Span) :
    Prop where
  exactly : ∀ s, s ∈ spans ↔ MaximalRun blank cs s
  order : spans.Pairwise fun s t => s.stop < t.start

theorem Spans.mem_shift {spans : List Span} (h : Spans blank rest spans)
    (front : List Char) (isBlank : blank x = true) :
    s ∈ spans.map (shift (front.length + 1)) ↔
    MaximalRun blank (front ++ x :: rest) s ∧ front.length < s.start := by
  rw [List.mem_map]
  constructor
  · rintro ⟨t, member, rfl⟩
    exact ⟨(maximalRun_shift isBlank).2 ((h.exactly t).1 member), by
      simp only [shift]; omega⟩
  · rintro ⟨run, high⟩
    have filled := run.filled
    obtain ⟨t, rfl⟩ : ∃ t, s = shift (front.length + 1) t :=
      ⟨⟨s.start - (front.length + 1), s.stop - (front.length + 1)⟩, by
        cases s
        simp only [shift, Span.mk.injEq] at *
        omega⟩
    exact ⟨t, (h.exactly t).2 ((maximalRun_shift isBlank).1 run), rfl⟩

theorem Spans.order_shift {spans : List Span} (h : Spans blank rest spans)
    (n : Nat) :
    (spans.map (shift n)).Pairwise fun s t => s.stop < t.start :=
  h.order.map _ fun _ _ apart => Nat.add_lt_add_left apart n

end Positions

/-! ## What words are -/

namespace Worded

variable {words : List (List Char)}

theorem clean_of_mem (h : Worded blank cs words) :
    ∀ word ∈ words, word ≠ [] ∧ ∀ c ∈ word, blank c = false := by
  induction h with
  | done => simp
  | skip isBlank later ih => exact ih
  | last filled clean => simpa using ⟨filled, clean⟩
  | next filled clean isBlank later ih =>
      rw [List.forall_mem_cons]
      exact ⟨⟨filled, clean⟩, ih⟩

theorem flatten_eq (h : Worded blank cs words) :
    words.flatten = cs.filter fun c => !blank c := by
  induction h with
  | done => rfl
  | skip isBlank later ih => simp [isBlank, ih]
  | last filled clean =>
      rw [List.filter_eq_self.2 (by simpa using clean)]
      simp
  | @next word x rest words filled clean isBlank later ih =>
      have kept : word.filter (fun c => !blank c) = word :=
        List.filter_eq_self.2 (by simpa using clean)
      simp [kept, isBlank, ih]

theorem spans (h : Worded blank cs words) :
    ∃ spans : List Span, Spans blank cs spans ∧
    words = spans.map fun s => cs.extract s.start s.stop := by
  induction h with
  | done =>
      refine ⟨[], ⟨fun s => ⟨fun member => absurd member List.not_mem_nil,
        fun run => ?_⟩, .nil⟩, rfl⟩
      exact absurd (Nat.lt_of_lt_of_le run.filled run.inside)
        (Nat.not_lt_zero _)
  | @skip x rest words isBlank later ih =>
      obtain ⟨spans, found, cut⟩ := ih
      have shifted (s : Span) := found.mem_shift [] (s := s) isBlank
      refine ⟨spans.map (shift 1),
        ⟨fun s => ⟨fun member => ((shifted s).1 member).1, fun run => ?_⟩,
          found.order_shift 1⟩, ?_⟩
      · obtain low | high := run.apart [] isBlank
        · exact absurd (Nat.lt_of_lt_of_le run.filled low) (Nat.not_lt_zero _)
        · exact (shifted s).2 ⟨run, high⟩
      · rw [cut, List.map_map]
        exact List.map_congr_left fun s _ => (extract_shift [] x rest s).symm
  | @last word filled clean =>
      refine ⟨[⟨0, word.length⟩], ⟨fun s => ?_,
        List.pairwise_singleton _ _⟩, by simp [List.extract_eq_take_drop]⟩
      have only := maximalRun_front [] (s := s) filled clean (by simp)
      rw [List.append_nil] at only
      rw [List.mem_singleton, ← only]
      exact ⟨And.left, fun run => ⟨run, run.inside⟩⟩
  | @next word x rest words filled clean isBlank later ih =>
      obtain ⟨spans, found, cut⟩ := ih
      refine ⟨⟨0, word.length⟩ :: spans.map (shift (word.length + 1)),
        ⟨fun s => ?_, ?_⟩, ?_⟩
      · rw [List.mem_cons,
          ← maximalRun_front (x :: rest) filled clean (by simpa using isBlank),
          found.mem_shift word isBlank, ← and_or_left]
        exact ⟨And.left, fun run => ⟨run, run.apart word isBlank⟩⟩
      · refine List.pairwise_cons.2 ⟨fun t member => ?_, found.order_shift _⟩
        exact ((found.mem_shift word isBlank).1 member).2
      · rw [List.map_cons, List.map_map, cut]
        congr 1
        · simp [List.extract_eq_take_drop]
        · exact List.map_congr_left fun s _ =>
            (extract_shift word x rest s).symm

end Worded

/-! ## Fields -/

theorem isFieldBlank_eq_false {c : Char} : isFieldBlank c = false ↔ c ≠ ' ' ∧
    c ≠ '\t' ∧ c ≠ '\n' := by
  simp [isFieldBlank, and_assoc]

theorem splitWith_space (compile : String →
    Except Regex.PatternError Regex.Pattern) (text : String) :
    Splitter.splitWith compile text " " =
      .ok ((words isFieldBlank text.toList).map String.ofList) := by
  by_cases empty : text = ""
  · subst empty
    rfl
  · rw [Splitter.splitWith, if_neg empty]
    change Except.ok (Splitter.blanks.split text) = _
    rw [Splitter.split, if_neg empty]

theorem exec_splitWith_space (text : String) (m : Machine) :
    Exec.splitWith text " " m =
      .ok ((words isFieldBlank text.toList).map String.ofList) m := by
  unfold Exec.splitWith
  by_cases empty : text = ""
  · subst empty
    rfl
  · rw [if_neg empty]
    change EStateM.Result.ok (Splitter.blanks.split text) m = _
    rw [Splitter.split, if_neg empty]

/-- Cut at a single space, a text gives its maximal runs of characters other
than space, tab and newline, from left to right, and nothing else.  None of them
is empty or holds a blank, between two of them there is a blank, and together
they are the text without its blanks. -/
theorem default_fields_are_maximal_runs
    (compile : String → Except Regex.PatternError Regex.Pattern)
    (text : String) :
    ∃ (fields : List String) (spans : List Span),
      Splitter.splitWith compile text " " = .ok fields ∧
      (∀ m, Exec.splitWith text " " m = .ok fields m) ∧
      fields = spans.map (fun s => String.ofList
        (text.toList.extract s.start s.stop)) ∧
      (∀ s, s ∈ spans ↔ MaximalRun isFieldBlank text.toList s) ∧
      (spans.Pairwise fun s t =>
        ∃ i c, s.stop ≤ i ∧ i < t.start ∧ text.toList[i]? = some c ∧
        isFieldBlank c = true) ∧
      (∀ field ∈ fields, field ≠ "" ∧ ∀ c ∈ field.toList, c ≠ ' ' ∧ c ≠ '\t' ∧
        c ≠ '\n') ∧
      (String.join fields).toList = text.toList.filter fun c =>
        !isFieldBlank c := by
  have worded := worded_words isFieldBlank text.toList
  obtain ⟨spans, found, cut⟩ := worded.spans
  refine ⟨_, spans, splitWith_space compile text, exec_splitWith_space text, ?_,
    found.exactly, ?_, ?_, ?_⟩
  · rw [cut, List.map_map]
    rfl
  · refine found.order.imp_of_mem fun {s t} first second apart => ?_
    have behind := (found.exactly t).1 second
    have inside : s.stop < text.toList.length :=
      Nat.lt_trans apart (Nat.lt_of_lt_of_le behind.filled behind.inside)
    have here := List.getElem?_eq_getElem inside
    exact ⟨s.stop, _, Nat.le_refl _, apart, here,
      ((found.exactly s).1 first).after _ here⟩
  · intro field member
    obtain ⟨word, among, rfl⟩ := List.mem_map.1 member
    obtain ⟨filled, clean⟩ := worded.clean_of_mem word among
    refine ⟨by simpa using filled,
      fun c here => isFieldBlank_eq_false.1 (clean c ?_)⟩
    rwa [String.toList_ofList] at here
  · rw [← worded.flatten_eq, String.toList_join, List.flatMap_map]
    simp [List.flatMap_id']

end Awk.Text
