import Awk.Proofs.Invariant
import Awk.Proofs.Records.Cut

/-!
# Ranges of records

A rule with a range keeps one bit: whether the range is open.  The bit is read
and written when the rule is tried and at no other time, so after any trials it
says whether the range that the lines of these trials open is still open.  For a
range between two patterns, the trials that succeed are those in the intervals
from a line with the first pattern to the next line with the second one, both
included.
-/

namespace Awk

open Exec (Keeps)

/-! ## Intervals -/

def Matches (pattern line : String) : Prop :=
  Regex.occurs (Regex.compile pattern) line = .ok true

def Searchable (pattern : String) : Prop :=
  ∀ e, Regex.compile pattern = .error e → e.isPassedOver = true

def Hits (pattern : String) (lines : List String) (k : Nat) : Prop :=
  ∃ line, lines[k]? = some line ∧ Matches pattern line

/-- An interval begins at a place or before it, and no line ends it before that
place. -/
def InInterval (start stop : String) (lines : List String) (k : Nat) : Prop :=
  ∃ i ≤ k, Hits start lines i ∧ ∀ j, i ≤ j → j < k → ¬Hits stop lines j

section Intervals

variable {start stop pattern line : String} {lines : List String} {k : Nat}

theorem Hits.lt_length (h : Hits pattern lines k) : k < lines.length := by
  obtain ⟨line, found, -⟩ := h
  obtain ⟨inside, -⟩ := List.getElem?_eq_some_iff.1 found
  exact inside

theorem hits_append_of_lt (inside : k < lines.length) :
    Hits pattern (lines ++ [line]) k ↔ Hits pattern lines k := by
  simp only [Hits, List.getElem?_append_left inside]

theorem hits_append_last : Hits pattern (lines ++ [line]) lines.length ↔
    Matches pattern line := by
  simp [Hits]

theorem inInterval_append_of_lt (inside : k < lines.length) :
    InInterval start stop (lines ++ [line]) k ↔
    InInterval start stop lines k := by
  constructor
  · rintro ⟨i, before, opens, closes⟩
    refine ⟨i, before, (hits_append_of_lt (by omega)).1 opens,
      fun j first last closed => ?_⟩
    exact closes j first last ((hits_append_of_lt (by omega)).2 closed)
  · rintro ⟨i, before, opens, closes⟩
    refine ⟨i, before, (hits_append_of_lt (by omega)).2 opens,
      fun j first last closed => ?_⟩
    exact closes j first last ((hits_append_of_lt (by omega)).1 closed)

/-- A further line is in an interval if one is open, or if it opens one. -/
theorem inInterval_append_last :
    InInterval start stop (lines ++ [line]) lines.length ↔
      InInterval start stop lines lines.length ∨ Matches start line := by
  constructor
  · rintro ⟨i, before, opens, closes⟩
    rcases Nat.lt_or_eq_of_le before with inside | rfl
    · left
      refine ⟨i, before, (hits_append_of_lt inside).1 opens,
        fun j first last closed => ?_⟩
      exact closes j first last ((hits_append_of_lt last).2 closed)
    · exact .inr (hits_append_last.1 opens)
  · rintro (⟨i, before, opens, closes⟩ | opens)
    · refine ⟨i, before, (hits_append_of_lt opens.lt_length).2 opens,
        fun j first last closed => ?_⟩
      exact closes j first last ((hits_append_of_lt last).1 closed)
    · exact ⟨lines.length, Nat.le_refl _, hits_append_last.2 opens,
        fun j first last => by omega⟩

/-- Behind a line an interval is open if the line is in one and does not end
it. -/
theorem inInterval_after_last :
    InInterval start stop (lines ++ [line]) (lines.length + 1) ↔
      (InInterval start stop lines lines.length ∨ Matches start line) ∧
      ¬Matches stop line := by
  have ends : Hits stop (lines ++ [line]) lines.length ↔ Matches stop line :=
    hits_append_last
  rw [← inInterval_append_last, ← ends]
  constructor
  · rintro ⟨i, before, opens, closes⟩
    have inside := opens.lt_length
    rw [List.length_append, List.length_singleton] at inside
    exact ⟨⟨i, by omega, opens, fun j first last => closes j first (by omega)⟩,
      closes lines.length (by omega) (by omega)⟩
  · rintro ⟨⟨i, before, opens, closes⟩, goesOn⟩
    refine ⟨i, by omega, opens, fun j first last => ?_⟩
    rcases Nat.lt_or_eq_of_le (Nat.le_of_lt_succ last) with earlier | rfl
    · exact closes j first earlier
    · exact goesOn

end Intervals

/-! ## What leaves the ranges alone -/

structure Undisturbed (m m' : Machine) : Prop where
  ranges : m'.ranges = m.ranges
  coherent : m.regexes.Coherent → m'.regexes.Coherent

instance : IsPreorder Machine Undisturbed where
  refl _ := ⟨rfl, id⟩
  trans _ _ _ h₁ h₂ := ⟨h₂.ranges.trans h₁.ranges, h₂.coherent ∘ h₁.coherent⟩

theorem Change.undisturbed {m m' : Machine} (step : Change m m') :
    Undisturbed m m' := by
  refine ⟨?_, step.coherent⟩
  cases step <;> rfl

theorem undisturbed_alongActions : AlongActions Undisturbed where
  change := Change.undisturbed
  effect step := by cases step <;> exact ⟨rfl, id⟩
  shift step := by cases step <;> exact ⟨rfl, id⟩
  call := by
    intro m m' f bindings body
    obtain ⟨lines, entered⟩ := m.enter_eq f bindings
    rw [entered] at body
    exact ⟨body.ranges, body.coherent⟩
  nest inner := ⟨inner.ranges, inner.coherent⟩

theorem Guard.holds_undisturbed (g : Guard) :
    Keeps Undisturbed (g.holds .standard) := by
  cases g with
  | regex pattern =>
      refine Keeps.get_bind fun m => ?_
      have occurs : Keeps Undisturbed (Exec.occurs pattern m.record.line) :=
        undisturbed_alongActions.sequential.primitive
          (Exec.occurs_primitive pattern m.record.line)
      exact occurs m
  | expr e =>
      have bodies := undisturbed_alongActions.occurring_keeps .standard
      exact isTrue_related (undisturbed_alongActions.looping bodies).toStraight
        e

/-! ## Trials -/

structure Spares (index : Nat) (m m' : Machine) : Prop where
  others : ∀ other, other ≠ index → m'.ranges[other]? = m.ranges[other]?
  length : m'.ranges.length = m.ranges.length
  coherent : m.regexes.Coherent → m'.regexes.Coherent

instance (index : Nat) : IsPreorder Machine (Spares index) where
  refl _ := ⟨fun _ _ => rfl, rfl, id⟩
  trans _ _ _ h₁ h₂ :=
    ⟨fun other apart => (h₂.others other apart).trans (h₁.others other apart),
      h₂.length.trans h₁.length, h₂.coherent ∘ h₁.coherent⟩

theorem Undisturbed.spares {m m' : Machine} (h : Undisturbed m m')
    (index : Nat) : Spares index m m' :=
  ⟨fun other _ => by rw [h.ranges], by rw [h.ranges], h.coherent⟩

theorem setRange_spares (index : Nat) (isOpen : Bool) :
    Keeps (Spares index) (setRange index isOpen) := by
  intro m
  refine ⟨fun other apart => ?_, ?_, id⟩
  · change (m.ranges.set index isOpen)[other]? = m.ranges[other]?
    rw [List.getElem?_set_ne apart.symm]
  · exact List.length_set

theorem Trigger.holds_spares (t : Trigger) (index : Nat) :
    Keeps (Spares index) (t.holds .standard index) := by
  have guard (g : Guard) : Keeps (Spares index) (g.holds .standard) :=
    fun m => (g.holds_undisturbed m).spares index
  cases t with
  | begin | finish | always => exact Keeps.pure _
  | «when» g => exact guard g
  | range start stop =>
      refine Keeps.get_bind fun m => ?_
      split
      · refine (guard stop).bind (fun closes => ?_) m
        split
        · exact (setRange_spares index false).bind fun _ => Keeps.pure true
        · exact Keeps.pure true
      · refine (guard start).bind (fun opens => ?_) m
        split
        · refine (guard stop).bind fun closes => ?_
          exact (setRange_spares index _).bind fun _ => Keeps.pure true
        · exact Keeps.pure false

section inRange

variable {index : Nat} {m m' : Machine} {e : Fault}

theorem inRange_open (isOpen : m.ranges.getD index false = true)
    (start stop : Guard) :
    inRange .standard index start stop m =
      (do
        if ← stop.holds .standard then setRange index false
        return true : Exec Bool) m := by
  change (if m.ranges.getD index false = true then _ else _ : Exec Bool) m = _
  rw [if_pos isOpen]

theorem inRange_closed (closed : m.ranges.getD index false = false)
    (start stop : Guard) :
    inRange .standard index start stop m =
      (do
        if ← start.holds .standard then
          let closes ← stop.holds .standard
          setRange index (!closes)
          return true
        else return false : Exec Bool) m := by
  change (if m.ranges.getD index false = true then _ else _ : Exec Bool) m = _
  rw [if_neg (Bool.eq_false_iff.1 closed)]

theorem Trigger.holds_error {t : Trigger}
    (h : t.holds .standard index m = .error e m') : Undisturbed m m' := by
  have failed {g : Guard} {m₁ : Machine} (h : g.holds .standard m₁ =
      .error e m') : Undisturbed m₁ m' :=
    Exec.final_error h ▸ g.holds_undisturbed m₁
  have held {g : Guard} {m₁ m₂ : Machine} {b : Bool}
      (h : g.holds .standard m₁ = .ok b m₂) : Undisturbed m₁ m₂ :=
    Exec.final_ok h ▸ g.holds_undisturbed m₁
  cases t with
  | begin | finish | always => contradiction
  | «when» g => exact failed h
  | range start stop =>
      cases isOpen : m.ranges.getD index false with
      | true =>
          rw [Trigger.holds, inRange_open isOpen] at h
          rcases Exec.bind_eq_error.1 h with first | ⟨closes, m₁, -, rest⟩
          · exact failed first
          · cases closes <;> contradiction
      | false =>
          rw [Trigger.holds, inRange_closed isOpen] at h
          rcases Exec.bind_eq_error.1 h with first | ⟨opens, m₁, first, rest⟩
          · exact failed first
          cases opens with
          | false => contradiction
          | true =>
              rcases Exec.bind_eq_error.1 rest with
                second | ⟨closes, m₂, -, rest⟩
              · exact trans_of Undisturbed (held first) (failed second)
              · contradiction

/-! ## Ranges between patterns -/

theorem Guard.regex_cases {pattern : String} {b : Bool}
    (coherent : m.regexes.Coherent)
    (h : (Guard.regex pattern).holds .standard m = .ok b m') :
    (b = true ↔ Matches pattern m.record.line) ∧ ∃ c, c.Coherent ∧
    m' = { m with regexes := c } := by
  obtain ⟨found, m₁, looked, rest⟩ :=
    Exec.bind_eq_ok.1 (show Exec.occurs pattern m.record.line m = _ from h)
  obtain ⟨rfl, c, kept, rfl⟩ := Exec.regex_cases coherent looked
  unfold Matches
  cases occurs : Regex.occurs (Regex.compile pattern) m.record.line with
  | ok found =>
      rw [occurs] at rest
      cases rest
      exact ⟨by simp, c, kept, rfl⟩
  | error e =>
      rw [occurs] at rest
      contradiction

theorem Guard.regex_answers {pattern : String} (coherent : m.regexes.Coherent)
    (fine : Searchable pattern) :
    ∃ b c, c.Coherent ∧ (Guard.regex pattern).holds .standard m = .ok b { m with
      regexes := c } := by
  obtain ⟨found, m₁, looked⟩ : ∃ found m₁, Exec.regex pattern m =
      .ok found m₁ := by
    cases looked : m.regexes.lookup { text := pattern } with
    | ok entry => exact ⟨_, _, Exec.regex_ok looked⟩
    | error e => exact ⟨_, _, Exec.regex_error looked⟩
  obtain ⟨rfl, c, kept, rfl⟩ := Exec.regex_cases coherent looked
  obtain ⟨b, occurs⟩ : ∃ b, Regex.occurs (Regex.compile pattern) m.record.line =
      .ok b := by
    cases occurs : Regex.occurs (Regex.compile pattern) m.record.line with
    | ok b => exact ⟨b, rfl⟩
    | error e =>
        obtain ⟨failed, apparent⟩ := Regex.occurs_eq_error.1 occurs
        rw [fine e failed] at apparent
        contradiction
  refine ⟨b, c, kept, ?_⟩
  change (Exec.regex pattern >>= _) m = _
  rw [Exec.bind_ok looked, occurs]
  rfl

theorem inRange_answers {start stop : String} (coherent : m.regexes.Coherent)
    (first : Searchable start) (second : Searchable stop) :
    ∃ answer m', inRange .standard index (.regex start) (.regex stop) m =
      .ok answer m' := by
  cases isOpen : m.ranges.getD index false with
  | true =>
      obtain ⟨closes, c, -, held⟩ := Guard.regex_answers coherent second
      rw [inRange_open isOpen, Exec.bind_ok held]
      cases closes <;> exact ⟨_, _, rfl⟩
  | false =>
      obtain ⟨opens, c, kept, held⟩ := Guard.regex_answers coherent first
      rw [inRange_closed isOpen, Exec.bind_ok held]
      cases opens with
      | false => exact ⟨_, _, rfl⟩
      | true =>
          obtain ⟨closes, c', -, held⟩ :=
            Guard.regex_answers (m := { m with regexes := c }) kept second
          exact ⟨_, _, Exec.bind_ok held _⟩

/-- A trial succeeds if the range is open or the record opens it, and then it is
open unless the record closes it. -/
theorem inRange_cases {start stop : String} {answer : Bool}
    (coherent : m.regexes.Coherent) (placed : index < m.ranges.length)
    (h : inRange .standard index (.regex start) (.regex stop) m =
      .ok answer m') :
    (answer = true ↔ m.ranges.getD index false = true ∨
      Matches start m.record.line) ∧
      (m'.ranges.getD index false = true ↔ answer = true ∧
        ¬Matches stop m.record.line) := by
  have written (b : Bool) : (m.ranges.set index b).getD index false = b := by
    simp [placed]
  cases isOpen : m.ranges.getD index false with
  | true =>
      rw [inRange_open isOpen] at h
      obtain ⟨closes, m₁, held, rest⟩ := Exec.bind_eq_ok.1 h
      obtain ⟨stops, c, -, rfl⟩ := Guard.regex_cases coherent held
      cases closes with
      | true =>
          cases rest
          simp only [written, ← stops]
          simp
      | false =>
          cases rest
          simp only [isOpen, ← stops]
          simp
  | false =>
      rw [inRange_closed isOpen] at h
      obtain ⟨opens, m₁, held, rest⟩ := Exec.bind_eq_ok.1 h
      obtain ⟨starts, c, kept, rfl⟩ := Guard.regex_cases coherent held
      cases opens with
      | false =>
          cases rest
          simp only [isOpen, ← starts]
          simp
      | true =>
          obtain ⟨closes, m₂, held, rest⟩ := Exec.bind_eq_ok.1 rest
          obtain ⟨stops, c', -, rfl⟩ := Guard.regex_cases kept held
          cases rest
          simp only [written, ← starts, ← stops]
          simp

end inRange

/-! ## Sequences of trials -/

structure Trial where
  index : Nat
  line : String
  answer : Bool

/-- The trials of a program's rules, in order, from one state to another.  What
happens between them leaves the ranges alone. -/
inductive Tried (p : Program) (m : Machine) : List Trial → Machine → Prop
  | start : Tried p m [] m
  | between {log : List Trial} {m₁ m₂ : Machine} (before : Tried p m log m₁)
      (step : Undisturbed m₁ m₂) : Tried p m log m₂
  | answered {log : List Trial} {m₁ m₂ : Machine} {index : Nat} {r : Rule}
      {answer : Bool} (before : Tried p m log m₁)
      (rule : p.rules[index]? = some r)
      (trial : r.trigger.holds .standard index m₁ = .ok answer m₂) :
      Tried p m (log ++ [⟨index, m₁.record.line, answer⟩]) m₂
  | failed {log : List Trial} {m₁ m₂ : Machine} {index : Nat} {r : Rule}
      {e : Fault} (before : Tried p m log m₁) (rule : p.rules[index]? = some r)
      (trial : r.trigger.holds .standard index m₁ = .error e m₂) :
      Tried p m log m₂

def trialsOf (index : Nat) (log : List Trial) : List Trial :=
  log.filter (·.index = index)

def linesOf (index : Nat) (log : List Trial) : List String :=
  (trialsOf index log).map Trial.line

section Tracks

variable {index other : Nat} {log : List Trial} {line start stop : String}
    {answer : Bool} {m m' : Machine}

theorem trialsOf_append_same : trialsOf index (log ++ [⟨index, line, answer⟩]) =
    trialsOf index log ++ [⟨index, line, answer⟩] := by
  simp [trialsOf]

theorem trialsOf_append_other (apart : other ≠ index) :
    trialsOf index (log ++ [⟨other, line, answer⟩]) = trialsOf index log := by
  simp [trialsOf, apart]

theorem length_linesOf : (linesOf index log).length =
    (trialsOf index log).length := List.length_map ..

/-- After some trials, the bit of a rule says whether its range is open, and the
answers so far are right. -/
structure Tracks (p : Program) (index : Nat) (start stop : String)
    (log : List Trial) (m : Machine) : Prop where
  coherent : m.regexes.Coherent
  length : m.ranges.length = p.rules.length
  isOpen : m.ranges.getD index false = true ↔
    InInterval start stop (linesOf index log) (linesOf index log).length
  answers : ∀ k t, (trialsOf index log)[k]? = some t →
    (t.answer = true ↔ InInterval start stop (linesOf index log) k)

variable {p : Program}

theorem Tracks.answered (h : Tracks p index start stop log m)
    (placed : index < p.rules.length)
    (trial : inRange .standard index (.regex start) (.regex stop) m =
      .ok answer m') (spares : Spares index m m') :
    Tracks p index start stop (log ++ [⟨index, m.record.line, answer⟩]) m' := by
  obtain ⟨succeeds, remains⟩ :=
    inRange_cases h.coherent (by rw [h.length]; exact placed) trial
  have lines : linesOf index (log ++ [⟨index, m.record.line, answer⟩]) =
      linesOf index log ++ [m.record.line] := by
    simp [linesOf, trialsOf_append_same]
  rw [h.isOpen, ← inInterval_append_last] at succeeds
  refine ⟨spares.coherent h.coherent, spares.length.trans h.length, ?_,
    fun k t found => ?_⟩
  · rw [lines, List.length_append, List.length_singleton,
      inInterval_after_last, ← inInterval_append_last, ← succeeds]
    exact remains
  · rw [lines]
    rw [trialsOf_append_same] at found
    rcases Nat.lt_trichotomy k (trialsOf index log).length with
      earlier | rfl | later
    · rw [List.getElem?_append_left earlier] at found
      rw [inInterval_append_of_lt (by rwa [length_linesOf])]
      exact h.answers k t found
    · rw [List.getElem?_concat_length] at found
      cases found
      rw [← length_linesOf]
      exact succeeds
    · rw [List.getElem?_eq_none (by simp; omega)] at found
      contradiction

theorem Tracks.spared (h : Tracks p index start stop log m)
    (spares : Spares other m m') (apart : other ≠ index) :
    Tracks p index start stop log m' where
  coherent := spares.coherent h.coherent
  length := spares.length.trans h.length
  isOpen := by
    rw [List.getD_eq_getElem?_getD,
      spares.others index apart.symm, ← List.getD_eq_getElem?_getD]
    exact h.isOpen
  answers := h.answers

theorem Tracks.undisturbed (h : Tracks p index start stop log m)
    (step : Undisturbed m m') :
    Tracks p index start stop log m' where
  coherent := step.coherent h.coherent
  length := by rw [step.ranges, h.length]
  isOpen := by rw [step.ranges, h.isOpen]
  answers := h.answers

theorem tracks_load (p : Program) (index : Nat) (start stop : String)
    (coherent : m.regexes.Coherent) :
    Tracks p index start stop [] ((load p).final m) where
  coherent := coherent
  length := List.length_map ..
  isOpen := by
    have closed : (p.rules.map fun _ => false).getD index false = false := by
      rw [List.getD_eq_getElem?_getD, List.getElem?_map]
      cases p.rules[index]? <;> rfl
    have empty : ¬InInterval start stop [] 0 := by
      rintro ⟨i, -, opens, -⟩
      exact absurd opens.lt_length (by simp)
    change (p.rules.map fun _ => false).getD index false = true ↔
      InInterval start stop [] 0
    rw [closed]
    simpa using empty
  answers := by simp [trialsOf]

/-- What one trial keeps is kept by every sequence of trials. -/
theorem Tried.tracks {m₀ : Machine} {r : Rule}
    (h : Tried p ((load p).final m₀) log m) (coherent : m₀.regexes.Coherent)
    (rule : p.rules[index]? = some r)
    (range : r.trigger = .range (.regex start) (.regex stop)) :
    Tracks p index start stop log m := by
  induction h with
  | start => exact tracks_load p index start stop coherent
  | between _ step ih => exact ih.undisturbed step
  | failed _ _ trial ih => exact ih.undisturbed (Trigger.holds_error trial)
  | @answered log m₁ m₂ tried r' answer _ rule' trial ih =>
      have spares : Spares tried m₁ m₂ :=
        Exec.final_ok trial ▸ r'.trigger.holds_spares tried m₁
      by_cases same : tried = index
      · subst same
        obtain rfl : r' = r := Option.some.inj (rule'.symm.trans rule)
        rw [range] at trial
        have placed := (List.getElem?_eq_some_iff.1 rule).1
        exact ih.answered placed trial spares
      · have lines : linesOf index (log ++ [⟨tried, m₁.record.line, answer⟩]) =
            linesOf index log := by
          rw [linesOf, trialsOf_append_other same, linesOf]
        have others := ih.spared spares same
        refine ⟨others.coherent, others.length, ?_, ?_⟩
        · rw [lines]
          exact others.isOpen
        · rw [lines, trialsOf_append_other same]
          exact others.answers

theorem Tracks.answers_eq {p' : Program} {log' : List Trial}
    (h : Tracks p index start stop log m)
    (h' : Tracks p' index start stop log' m')
    (lines : linesOf index log = linesOf index log') :
    (trialsOf index log).map Trial.answer =
      (trialsOf index log').map Trial.answer := by
  have lengths : (trialsOf index log).length =
      (trialsOf index log').length := by
    rw [← length_linesOf, ← length_linesOf, lines]
  apply List.ext_getElem (by simpa using lengths)
  intro k inside inside'
  rw [List.length_map] at inside inside'
  simp only [List.getElem_map]
  have first := h.answers k _ (List.getElem?_eq_getElem inside)
  have second := h'.answers k _ (List.getElem?_eq_getElem inside')
  rw [← lines] at second
  exact Bool.eq_iff_iff.2 (first.trans second.symm)

end Tracks

/-! ## Runs -/

def TrialsLead (p : Program) (m m' : Machine) : Prop := ∃ log, Tried p m log m'

theorem Tried.trans {p : Program} {m₀ m₁ m₂ : Machine} {log₁ log₂ : List Trial}
    (first : Tried p m₀ log₁ m₁) (second : Tried p m₁ log₂ m₂) :
    Tried p m₀ (log₁ ++ log₂) m₂ := by
  induction second with
  | start => rwa [List.append_nil]
  | between _ step ih => exact ih.between step
  | failed _ rule trial ih => exact ih.failed rule trial
  | answered _ rule trial ih =>
      rw [← List.append_assoc]
      exact ih.answered rule trial

instance (p : Program) : IsPreorder Machine (TrialsLead p) where
  refl _ := ⟨[], .start⟩
  trans := by
    rintro _ _ _ ⟨log₁, first⟩ ⟨log₂, second⟩
    exact ⟨log₁ ++ log₂, first.trans second⟩

theorem Undisturbed.trialsLead {m m' : Machine} (step : Undisturbed m m')
    (p : Program) : TrialsLead p m m' :=
  ⟨[], .between .start step⟩

theorem trialsLead_sequential (p : Program) :
    Sequential (Along.Kept (TrialsLead p)) :=
  Along.kept_sequential fun _ _ step => step.undisturbed.trialsLead p

/-- Nothing that a run does touches the ranges, but for the trials of its
rules. -/
theorem trialsLead_steps (p : Program) :
    InputSteps (Along.Kept (TrialsLead p)) (fun index r => p.rules[index]? =
      some r) .standard .standard where
  toSequential := trialsLead_sequential p
  trial := by
    intro index r rule m
    cases result : r.trigger.holds .standard index m with
    | ok answer m' =>
        rw [Exec.final_ok result]
        exact ⟨_, .answered .start rule result⟩
    | error e m' =>
        rw [Exec.final_error result]
        exact ⟨_, .failed .start rule result⟩
  action := by
    intro index r rule m
    have bodies := undisturbed_alongActions.occurring_keeps .standard
    have kept : Keeps Undisturbed (Stmt.execAll .standard r.action) :=
      Stmt.execAll_related (undisturbed_alongActions.looping bodies) r.action
        fun _ _ => trivial
    exact (kept m).trialsLead p
  straight := Primitive.keeps fun _ _ step =>
    (undisturbed_alongActions.effect step.effect).trialsLead p
  stage := by
    intro stage m
    have kept : Undisturbed m ((setStage stage).final m) := ⟨rfl, id⟩
    exact kept.trialsLead p
  shift := Primitive.keeps fun _ _ step =>
    (undisturbed_alongActions.shift step).trialsLead p
  recordLoop := fun count _ _ turn =>
    recordTurns_related (trialsLead_sequential p) turn count

/-- Let the rules of a program be tried in any order and as often as one likes
after it has been loaded, with anything in between that leaves the ranges alone.
Then a rule with a range between two patterns applies at its trial number `k`
exactly if there is a trial `i ≤ k` of this rule on a line with the first
pattern, and no trial `j` of this rule, `i ≤ j < k`, was on a line with the
second one; and a further trial has an answer, as far as the patterns can be
searched for.  Two such sequences with the same lines for the trials of this
rule give it the same answers.  Every run of a loaded program is such a
sequence, also if it ends with a fault. -/
theorem range_applies_iff_in_interval (p : Program) :
    (∀ m log m', m.regexes.Coherent → Tried p ((load p).final m) log m' →
      ∀ index r start stop, p.rules[index]? = some r →
      r.trigger = .range (.regex start) (.regex stop) →
        (∀ k t, (trialsOf index log)[k]? = some t →
          (t.answer = true ↔ ∃ i ≤ k, Hits start (linesOf index log) i ∧
            ∀ j, i ≤ j → j < k → ¬Hits stop (linesOf index log) j)) ∧
        (Searchable start → Searchable stop → ∃ answer m'',
          r.trigger.holds .standard index m' = .ok answer m'')) ∧
    (∀ m₁ log₁ m₁' m₂ log₂ m₂', m₁.regexes.Coherent →
      Tried p ((load p).final m₁) log₁ m₁' →
      m₂.regexes.Coherent → Tried p ((load p).final m₂) log₂ m₂' →
      ∀ index r start stop, p.rules[index]? = some r →
      r.trigger = .range (.regex start) (.regex stop) →
        linesOf index log₁ = linesOf index log₂ →
          (trialsOf index log₁).map Trial.answer =
            (trialsOf index log₂).map Trial.answer) ∧
    (∀ options host m, useOptions options (startMachine options host) =
      .ok () m →
      m.regexes.Coherent ∧ ∀ inputs, ∃ log,
        Tried p ((load p).final m) log
          ((runLoaded p inputs options).final
            (startMachine options host))) := by
  refine ⟨?_, ?_, ?_⟩
  · intro m log m' coherent tried index r start stop rule range
    have tracks := tried.tracks coherent rule range
    refine ⟨tracks.answers, fun first second => ?_⟩
    rw [range]
    exact inRange_answers tracks.coherent first second
  · intro _ _ _ _ _ _ coherent₁ tried₁ coherent₂ tried₂ index r start stop rule
      range lines
    exact (tried₁.tracks coherent₁ rule range).answers_eq
      (tried₂.tracks coherent₂ rule range) lines
  · intro options host m used
    have kept : Keeps Undisturbed (useOptions options) :=
      undisturbed_alongActions.sequential.primitive
        (useOptions_primitive options)
    refine ⟨(kept.of_ok used).coherent Regex.Cache.coherent_empty,
      fun inputs => ?_⟩
    unfold Exec.final runLoaded
    rw [loaded_apply used]
    split
    · exact ⟨[], .start⟩
    · exact (trialsLead_steps p).program (placed_getElem? p.rules) inputs _

/-- Two rules that are tried in turn, on a line that opens the first range and
on one that opens and closes neither. -/
theorem open_range_goes_on :
    let p : Program :=
      ⟨[⟨.range (.regex "a") (.regex "b"), []⟩,
        ⟨.range (.regex "b") (.regex "a"), []⟩], []⟩
    ∃ b₁ b₂ b₃ m', Tried p ((load p).final (startMachine {} {})) [⟨0, "a", b₁⟩,
      ⟨1, "a", b₂⟩, ⟨0, "x", b₃⟩] m' ∧ b₂ = false ∧ b₃ = true := by
  intro p
  have fineA : Searchable "a" := nofun
  have fineB : Searchable "b" := nofun
  have apart : ¬Matches "b" "a" := nofun
  obtain ⟨trials, -⟩ := range_applies_iff_in_interval p
  -- One more trial, on a given line.
  have further {log : List Trial} {m : Machine}
      (tried : Tried p ((load p).final (startMachine {} {})) log m)
      (index : Nat) (r : Rule) (start stop line : String)
      (rule : p.rules[index]? = some r) (range : r.trigger =
        .range (.regex start) (.regex stop)) (first : Searchable start)
      (second : Searchable stop) : ∃ b m',
      Tried p ((load p).final (startMachine {} {}))
        (log ++ [⟨index, line, b⟩]) m' := by
    have given : Tried p ((load p).final (startMachine {} {})) log { m with
      record := { line := line } } :=
      tried.between ⟨rfl, id⟩
    obtain ⟨-, answers⟩ :=
      trials _ log _ Regex.Cache.coherent_empty given index r start stop rule
        range
    obtain ⟨b, m', answered⟩ := answers first second
    exact ⟨b, m', given.answered rule answered⟩
  obtain ⟨b₁, m₁, one⟩ := further .start 0 _ "a" "b" "a" rfl rfl fineA fineB
  obtain ⟨b₂, m₂, two⟩ := further one 1 _ "b" "a" "a" rfl rfl fineB fineA
  obtain ⟨b₃, m₃, three⟩ := further two 0 _ "a" "b" "x" rfl rfl fineA fineB
  obtain ⟨second, -⟩ :=
    trials _ _ m₃ Regex.Cache.coherent_empty three 1 _ "b" "a" rfl rfl
  obtain ⟨first, -⟩ :=
    trials _ _ m₃ Regex.Cache.coherent_empty three 0 _ "a" "b" rfl rfl
  refine ⟨b₁, b₂, b₃, m₃, three, ?_, ?_⟩
  · have answer := second 0 ⟨1, "a", b₂⟩ rfl
    refine Bool.eq_false_iff.2 fun applies => ?_
    obtain ⟨i, before, ⟨line, found, opens⟩, -⟩ := answer.1 applies
    obtain rfl : i = 0 := by omega
    cases found
    exact apart opens
  · have answer := first 1 ⟨0, "x", b₃⟩ rfl
    refine answer.2 ⟨0, by omega, ⟨"a", rfl, rfl⟩, fun j _ inside => ?_⟩
    obtain rfl : j = 0 := by omega
    rintro ⟨line, found, closes⟩
    cases found
    exact apart closes

end Awk
