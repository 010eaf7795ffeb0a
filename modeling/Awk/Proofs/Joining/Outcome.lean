import Awk.Proofs.Source.Exclusion
import Awk.Proofs.Source.Progress
import Mathlib.Data.List.Forall2

/-!
# A text alone, and with more behind it

A parser is run on a text alone and, perhaps with more depth, on the same text
with another one behind it, which starts on a new line.  Mostly both runs find
alike values, the first one leaving a rest and the second one the same rest with
the other text behind it.  Where the first run ends at the end of the text in
vain and the second one goes on, nothing is said of the second one, but the
first one is doomed: what it leaves is a rest with which its surroundings cannot
go on.

`Joined` relates two such outcomes, and `Joins` the outcomes of two parsers.
The other text may be empty, so that it follows that neither the offset nor the
depth makes a difference.
-/

namespace Awk.Source

open Awk.Source.Parser
    (Scanner token require requireSilently optional many steps stepsWithin)

variable {α α' β β' : Type}

/-! ## Parsers that never find anything -/

def Never (p : Parser α) (cs : List Char) : Prop :=
  ∀ offset a next, (p ⟨cs, offset⟩).result ≠ .found a next

theorem Misses.never {p : Parser α} {cs : List Char} (h : Misses p cs) :
    Never p cs := by
  intro offset a next found
  rw [h offset] at found
  contradiction

theorem Sinks.never {p : Parser α} {cs : List Char} (h : Sinks p cs) :
    Never p cs := by
  intro offset a next found
  rw [h offset] at found
  contradiction

def Leaves (p : Parser α) (cs : List Char) (a : α) (rest : List Char) : Prop :=
  ∃ offset next, (p ⟨cs, offset⟩).result = .found a next ∧ next.rest = rest

section Never

variable {p q : Parser α} {f : α → Parser β} {cs : List Char}

theorem never_bind (h : ∀ offset a next,
    (p ⟨cs, offset⟩).result = .found a next → Never (f a) next.rest) :
    Never (p >>= f) cs := by
  intro offset b next found
  obtain ⟨a, mid, first, second⟩ := bind_eq_found found
  exact h offset a mid first mid.offset b next second

theorem Never.bind (h : Never p cs) : Never (p >>= f) cs :=
  never_bind fun offset a next found => (h offset a next found).elim

theorem Never.orElse (hp : Never p cs) (hq : Never q cs) :
    Never (p <|> q) cs := by
  intro offset a next found
  rw [result_orElse] at found
  rcases Found.elim_eq_found found with ⟨b, mid, first, -⟩ | ⟨-, second⟩
  · exact hp offset b mid first
  · exact hq offset a next second

end Never

/-! ## Gaps -/

def Gap.behind (g : Gap) (cs : List Char) : List Char :=
  cs.drop (g.length false cs)

@[simp] theorem Gap.behind_line (cs : List Char) :
    Gap.line.behind cs = behindGap cs := rfl

theorem result_gap_bind (g : Gap) (p : Parser α) (cs : List Char)
    (offset : Nat) :
    ((do gap g; p : Parser α) ⟨cs, offset⟩).result =
      (p ⟨g.behind cs, offset + g.length false cs⟩).result := rfl

theorem Never.gap {p : Parser α} {g : Gap} {cs : List Char}
    (h : Never p (g.behind cs)) : Never (do gap g; p) cs := by
  intro offset a next found
  rw [result_gap_bind] at found
  exact h _ a next found

def Torn (cs : List Char) : Prop := cs = ['\\'] ∨ cs = ['\\', '\r']

def Gap.Cut (g : Gap) (cs : List Char) : Prop := Torn cs ∨ g ≠ .line ∧ cs = []

theorem Gap.behind_cut {g g' : Gap} {cs : List Char} (cut : g.Cut cs) :
    g'.behind cs = cs := by
  obtain (rfl | rfl) | ⟨-, rfl⟩ := cut <;> cases g' <;> rfl

theorem Gap.length_le (g : Gap) (comment : Bool) (cs : List Char) :
    g.length comment cs ≤ cs.length := by
  fun_induction Gap.length g comment cs with
  | case1 rest inside ih => simpa using ih
  | case2 rest outside => simp
  | case3 c rest other ih => simpa using ih
  | case4 rest ih => simpa using ih
  | case5 rest ih => simpa using ih
  | case6 rest one two ih => simpa using ih
  | case7 c rest one two other inside ih => simpa using ih
  | case8 c rest one two other outside => simp
  | case9 comment => simp

theorem Gap.length_append {t : List Char} (newline : OnNewLine t) (g : Gap)
    (comment : Bool) (cs : List Char)
    (whole : t = [] ∨ ¬g.Cut (cs.drop (g.length comment cs))) :
    g.length comment (cs ++ t) = g.length comment cs := by
  rcases whole with rfl | whole
  · rw [List.append_nil]
  fun_induction Gap.length g comment cs with
  | case1 rest inside ih =>
      rw [List.cons_append, Gap.length, if_pos inside, ih whole]
  | case2 rest outside => rw [List.cons_append, Gap.length, if_neg outside]
  | case3 c rest other ih =>
      rw [List.cons_append, Gap.length.eq_2 g c _ other, ih whole]
  | case4 rest ih =>
      rw [List.cons_append, List.cons_append, Gap.length, ih whole]
  | case5 rest ih =>
      rw [List.cons_append, List.cons_append, List.cons_append, Gap.length,
        ih whole]
  | case6 rest one two ih =>
      rw [List.cons_append, Gap.length.eq_5 g _ (rest ++ t) (by simp) (by simp),
        if_pos rfl, ih whole]
  | case7 c rest one two other inside ih =>
      have bare : c ≠ '\\' := by
        rintro rfl
        cases g <;> contradiction
      rw [List.cons_append,
        Gap.length.eq_5 g c (rest ++ t) (fun _ same => (bare same).elim)
          (fun _ same => (bare same).elim), if_neg other, if_pos inside,
        ih whole]
  | case8 c rest one two other outside =>
      -- Only a backslash at the end of the text might continue the line with
      -- more behind it.
      have one' (more : List Char) : c = '\\' → rest ++ t = '\n' :: more →
          False := by
        rintro rfl same
        cases rest with
        | nil => exact whole (.inl (.inl rfl))
        | cons d r =>
            obtain ⟨rfl, -⟩ := List.cons.inj same
            exact one r rfl rfl
      have two' (more : List Char) : c = '\\' →
          rest ++ t = '\r' :: '\n' :: more → False := by
        rintro rfl same
        cases rest with
        | nil => exact whole (.inl (.inl rfl))
        | cons d r =>
            obtain ⟨rfl, behind⟩ := List.cons.inj same
            cases r with
            | nil => exact whole (.inl (.inr rfl))
            | cons d r =>
                obtain ⟨rfl, -⟩ := List.cons.inj behind
                exact two r rfl rfl
      rw [List.cons_append, Gap.length.eq_5 g c (rest ++ t) one' two',
        if_neg other, if_neg outside]
  | case9 comment =>
      have line : g = .line := by
        by_contra other
        exact whole (.inr ⟨other, rfl⟩)
      subst line
      obtain rfl | ⟨s, rfl⟩ := newline.eq <;> cases comment <;> rfl

theorem Gap.behind_append {t : List Char} (newline : OnNewLine t) {g : Gap}
    {cs : List Char} (whole : t = [] ∨ ¬g.Cut (g.behind cs)) :
    g.behind (cs ++ t) = g.behind cs ++ t := by
  rw [Gap.behind, g.length_append newline false cs whole,
    List.drop_append_of_le_length (g.length_le false cs), Gap.behind]

/-! ## Two outcomes -/

/-- An outcome from which nothing comes: a rest as `D` says or, if nothing is
found, `F`. -/
inductive Doomed (D : List Char → Prop) (F : Prop) : Found α → Prop
  | found {a : α} {next : Cursor} (dead : D next.rest) :
      Doomed D F (.found a next)
  | missed (lost : F) : Doomed D F .missed
  | tooDeep : Doomed D F .tooDeep

/-- The outcome for a text alone, and the outcome for the text with `t` behind
it. -/
inductive Joined (t : List Char) (R : α → α' → Prop) (D : List Char → Prop)
    (F : Prop) : Found α → Found α' → Prop
  | found {a : α} {a' : α'} {next next' : Cursor} (alike : R a a')
      (rest : next'.rest = next.rest ++ t) :
      Joined t R D F (.found a next) (.found a' next')
  | missed : Joined t R D F .missed .missed
  | tooDeep (r' : Found α') : Joined t R D F .tooDeep r'
  | doomed {r : Found α} {r' : Found α'} (more : t ≠ []) (doom : Doomed D F r) :
      Joined t R D F r r'

def Dooms (D : List Char → Prop) (F : Prop) (p : Parser α) (cs : List Char) :
    Prop :=
  ∀ offset, Doomed D F (p ⟨cs, offset⟩).result

def Joins (t : List Char) (R : α → α' → Prop) (D : List Char → Prop) (F : Prop)
    (p : Parser α) (p' : Parser α') (cs : List Char) : Prop :=
  ∀ offset offset', Joined t R D F (p ⟨cs, offset⟩).result (p' ⟨cs ++ t,
    offset'⟩).result

section Doom

variable {D E : List Char → Prop} {F G : Prop} {p q : Parser α}
    {f : α → Parser β} {cs : List Char}

theorem Doomed.imp {r : Found α} (h : Doomed D F r)
    (dead : ∀ rest, D rest → E rest) (lost : F → G) : Doomed E G r := by
  cases h with
  | found h => exact .found (dead _ h)
  | missed h => exact .missed (lost h)
  | tooDeep => exact .tooDeep

theorem Never.dooms (h : Never p cs) (lost : F) : Dooms D F p cs := by
  intro offset
  cases outcome : (p ⟨cs, offset⟩).result with
  | found a next => exact (h offset a next outcome).elim
  | missed => exact .missed lost
  | tooDeep => exact .tooDeep

theorem Dooms.bind (first : Dooms D F p cs)
    (second : ∀ a rest, D rest → Dooms E F (f a) rest) :
    Dooms E F (p >>= f) cs := by
  intro offset
  have doom := first offset
  rw [result_bind]
  cases outcome : (p ⟨cs, offset⟩).result with
  | found a next =>
      rw [outcome] at doom
      cases doom with
      | found dead => exact second a next.rest dead next.offset
  | missed =>
      rw [outcome] at doom
      cases doom with
      | missed lost => exact .missed lost
  | tooDeep => exact .tooDeep

theorem Dooms.map (h : Dooms D F p cs) {g : α → β} :
    Dooms D F (do let a ← p; return g a) cs :=
  h.bind fun _ _ dead _ => .found dead

theorem Dooms.orElse (first : Dooms D G p cs) (second : G → Dooms D F q cs) :
    Dooms D F (p <|> q) cs := by
  intro offset
  have doom := first offset
  rw [result_orElse]
  cases outcome : (p ⟨cs, offset⟩).result with
  | found a next =>
      rw [outcome] at doom
      cases doom with
      | found dead => exact .found dead
  | missed =>
      rw [outcome] at doom
      cases doom with
      | missed lost => exact second lost offset
  | tooDeep => exact .tooDeep

theorem Dooms.optional (h : Dooms D (D cs) p cs) (ended : cs = [] → D []) :
    Dooms D F (optional p) cs := by
  intro offset
  rw [result_optional]
  split
  · rename_i empty
    obtain rfl : cs = [] := List.isEmpty_iff.1 empty
    exact .found (ended rfl)
  · have doom := h offset
    cases outcome : (p ⟨cs, offset⟩).result with
    | found a next =>
        rw [outcome] at doom
        cases doom with
        | found dead => exact .found dead
    | missed =>
        rw [outcome] at doom
        cases doom with
        | missed dead => exact .found dead
    | tooDeep => exact .tooDeep

theorem dooms_stepsWithin {step : α → Parser α} (dead : E cs)
    (stuck : cs = [] ∨ ∀ a, Never (step a) cs) (bound : List Char) (a : α) :
    Dooms E F (stepsWithin step bound a) cs := by
  intro offset
  cases bound with
  | nil => exact .found dead
  | cons b bound =>
      rw [result_stepsWithin]
      split
      · exact .found dead
      · rename_i filled
        cases outcome : (step a ⟨cs, offset⟩).result with
        | found b next =>
            obtain rfl | never := stuck
            · simp at filled
            · exact (never a offset b next outcome).elim
        | missed => exact .found dead
        | tooDeep => exact .tooDeep

theorem dooms_many (dead : E cs) (stuck : cs = [] ∨ Never p cs) :
    Dooms E F (many p) cs :=
  (dooms_stepsWithin dead (stuck.imp id fun never _ => never.bind) cs []).map

end Doom

/-! ## Sequences and choices -/

section Joins

variable {t : List Char} {R : α → α' → Prop} {S : β → β' → Prop}
    {D E : List Char → Prop} {F G : Prop} {p q : Parser α} {p' q' : Parser α'}
    {f : α → Parser β} {f' : α' → Parser β'} {cs : List Char}

theorem Joined.imp {R' : α → α' → Prop} {r : Found α} {r' : Found α'}
    (h : Joined t R D F r r') (same : ∀ a a', R a a' → R' a a')
    (dead : ∀ rest, D rest → E rest) (lost : F → G) : Joined t R' E G r r' := by
  cases h with
  | found alike rest => exact .found (same _ _ alike) rest
  | missed => exact .missed
  | tooDeep => exact .tooDeep _
  | doomed more doom => exact .doomed more (doom.imp dead lost)

theorem Joins.alike {R' : α → α' → Prop} (h : Joins t R D F p p' cs)
    (same : ∀ a a', R a a' → R' a a') : Joins t R' D F p p' cs :=
  fun offset offset' => (h offset offset').imp same (fun _ => id) id

theorem Joins.imp (h : Joins t R D F p p' cs) (dead : ∀ rest, D rest → E rest)
    (lost : F → G) : Joins t R E G p p' cs :=
  fun offset offset' => (h offset offset').imp (fun _ _ => id) dead lost

theorem Joins.weaken (h : Joins t R D F p p' cs) (lost : F → G) :
    Joins t R D G p p' cs := h.imp (fun _ => id) lost

theorem Joins.missing (h : Joins t R D F p p' cs)
    (lost : t ≠ [] → F → ∀ offset, (p ⟨cs, offset⟩).result = .missed → G) :
    Joins t R D G p p' cs := by
  intro offset offset'
  have joined := h offset offset'
  cases outcome : (p ⟨cs, offset⟩).result with
  | found a next =>
      rw [outcome] at joined
      generalize (p' ⟨cs ++ t, offset'⟩).result = r' at joined
      cases joined with
      | found same rest => exact .found same rest
      | doomed more doom =>
          cases doom with
          | found dead => exact .doomed more (.found dead)
  | missed =>
      rw [outcome] at joined
      generalize (p' ⟨cs ++ t, offset'⟩).result = r' at joined
      cases joined with
      | missed => exact .missed
      | doomed more doom =>
          cases doom with
          | missed gone =>
              exact .doomed more (.missed (lost more gone offset outcome))
  | tooDeep => exact .tooDeep _

theorem joins_pure {a : α} {a' : α'} (alike : R a a') :
    Joins t R D F (pure a) (pure a') cs :=
  fun _ _ => .found alike rfl

theorem Misses.joins (h : Misses p cs) (h' : Misses p' (cs ++ t)) :
    Joins t R D F p p' cs := by
  intro offset offset'
  rw [h offset, h' offset']
  exact .missed

theorem Sinks.joins (h : Sinks p cs) : Joins t R D F p p' cs := by
  intro offset offset'
  rw [h offset]
  exact .tooDeep _

theorem Dooms.joins (more : t ≠ []) (h : Dooms D F p cs) :
    Joins t R D F p p' cs :=
  fun offset _ => .doomed more (h offset)

theorem Joins.bind (first : Joins t R D F p p' cs)
    (second : ∀ a a' mid, Leaves p cs a mid → R a a' →
      Joins t S E F (f a) (f' a') mid)
    (dead : t ≠ [] → ∀ a mid, D mid → Dooms E F (f a) mid) :
    Joins t S E F (p >>= f) (p' >>= f') cs := by
  intro offset offset'
  have joined := first offset offset'
  rw [result_bind, result_bind]
  cases outcome : (p ⟨cs, offset⟩).result with
  | found a next =>
      rw [outcome] at joined
      generalize (p' ⟨cs ++ t, offset'⟩).result = r' at joined
      cases joined with
      | @found _ a' _ next' same rest =>
          have behind :=
            second a a' next.rest ⟨offset, next, outcome,
              rfl⟩ same next.offset next'.offset
          rw [← rest] at behind
          exact behind
      | doomed more doom =>
          cases doom with
          | found gone =>
              exact .doomed more (dead more a next.rest gone next.offset)
  | missed =>
      rw [outcome] at joined
      generalize (p' ⟨cs ++ t, offset'⟩).result = r' at joined
      cases joined with
      | missed => exact .missed
      | doomed more doom =>
          cases doom with
          | missed lost => exact .doomed more (.missed lost)
  | tooDeep => exact .tooDeep _

theorem Joins.bind_never (h : Joins t R D F p p' cs) (never : Never p cs)
    (kept : ¬F) : Joins t S E G (p >>= f) (p' >>= f') cs := by
  intro offset offset'
  have joined := h offset offset'
  rw [result_bind, result_bind]
  cases outcome : (p ⟨cs, offset⟩).result with
  | found a next => exact (never offset a next outcome).elim
  | missed =>
      rw [outcome] at joined
      generalize (p' ⟨cs ++ t, offset'⟩).result = r' at joined
      cases joined with
      | missed => exact .missed
      | doomed more doom =>
          cases doom with
          | missed lost => exact (kept lost).elim
  | tooDeep => exact .tooDeep _

theorem Joins.map {g : α → β} {g' : α' → β'} (h : Joins t R D F p p' cs)
    (alike : ∀ a a', R a a' → S (g a) (g' a')) :
    Joins t S D F (do let a ← p; return g a) (do let a ← p'; return g' a) cs :=
  h.bind (fun _ _ _ _ same => joins_pure (alike _ _ same)) fun _ _ _ dead _ =>
    .found dead

theorem Joins.orElse (first : Joins t R D G p p' cs)
    (lost : t ≠ [] → G → Dooms D F q cs) (second : Joins t R D F q q' cs) :
    Joins t R D F (p <|> q) (p' <|> q') cs := by
  intro offset offset'
  have joined := first offset offset'
  rw [result_orElse, result_orElse]
  cases outcome : (p ⟨cs, offset⟩).result with
  | found a next =>
      rw [outcome] at joined
      generalize (p' ⟨cs ++ t, offset'⟩).result = r' at joined
      cases joined with
      | found same rest => exact .found same rest
      | doomed more doom =>
          cases doom with
          | found dead => exact .doomed more (.found dead)
  | missed =>
      rw [outcome] at joined
      generalize (p' ⟨cs ++ t, offset'⟩).result = r' at joined
      cases joined with
      | missed => exact second offset offset'
      | doomed more doom =>
          cases doom with
          | missed gone => exact .doomed more (lost more gone offset)
  | tooDeep => exact .tooDeep _

/-- Without more text, what misses with one depth finds nothing with a greater
one. -/
theorem Joins.never_deeper (h : Joins [] R D F p p' cs) {offset : Nat}
    (missed : (p ⟨cs, offset⟩).result = .missed) :
    Never p' cs := by
  intro offset' a' next' found
  have joined := h offset offset'
  rw [missed, List.append_nil, found] at joined
  cases joined with
  | doomed more => exact more rfl

theorem Joins.never_flatter (h : Joins [] R D F p p' cs) {offset' : Nat}
    (missed : (p' ⟨cs, offset'⟩).result = .missed) :
    Never p cs := by
  intro offset a next found
  have joined := h offset offset'
  rw [List.append_nil, missed, found] at joined
  cases joined with
  | doomed more => exact more rfl

theorem Joins.finds (h : Joins t R (fun _ => False) F p p' cs) {a : α}
    {rest : List Char} (left : Leaves p cs a rest) :
    Finds p' (cs ++ t) (R a) (rest ++ t) := by
  obtain ⟨offset, next, found, rfl⟩ := left
  intro offset'
  have joined := h offset offset'
  rw [found] at joined
  generalize (p' ⟨cs ++ t, offset'⟩).result = r' at joined ⊢
  cases joined with
  | @found _ a' _ next' alike behind =>
      exact ⟨a', next'.offset, by rw [← behind], alike⟩
  | doomed more doom =>
      cases doom with
      | found dead => exact dead.elim

/-! ## Repetitions -/

theorem Joins.optional (h : Joins t R D G p p' cs)
    (ended : t ≠ [] → cs = [] → Misses p' t ∨ E []) (lost : t ≠ [] → G → E cs)
    (dead : ∀ rest, D rest → E rest) :
    Joins t (Option.Rel R) E F (optional p) (optional p') cs := by
  intro offset offset'
  have joined := h offset offset'
  rw [result_optional, result_optional]
  by_cases empty : cs = []
  · subst empty
    rw [if_pos (List.isEmpty_nil)]
    by_cases more : t = []
    · subst more
      exact .found .none rfl
    · obtain missed | dead := ended more rfl
      · rw [List.nil_append, missed offset']
        split <;> exact .found .none rfl
      · exact .doomed more (.found dead)
  · have filled : (cs ++ t).isEmpty = false := by simp [empty]
    rw [if_neg (by simpa using empty), if_neg (by simp [filled])]
    generalize (p ⟨cs, offset⟩).result = r at joined ⊢
    generalize (p' ⟨cs ++ t, offset'⟩).result = r' at joined ⊢
    cases joined with
    | found same rest => exact .found (.some same) rest
    | missed => exact .found .none rfl
    | tooDeep => exact .tooDeep _
    | doomed more doom =>
        refine .doomed more ?_
        cases doom with
        | found gone => exact .found (dead _ gone)
        | missed gone => exact .found (lost more gone)
        | tooDeep => exact .tooDeep

theorem Joins.optionally {f : Option α → Parser β} {f' : Option α' → Parser β'}
    (h : Joins t R D G p p' cs) (ended : t ≠ [] → cs = [] → Misses p' t ∨
      ∀ a, Never (f a) []) (lost : t ≠ [] → G → ∀ a, Never (f a) cs)
    (dead : ∀ rest a, D rest → Never (f a) rest) (vain : t ≠ [] →
      F) (behind : ∀ a a' mid, Option.Rel R a a' →
      Joins t S E F (f a) (f' a') mid) :
    Joins t S E F (Parser.optional p >>= f) (Parser.optional p' >>= f') cs :=
  (h.optional (E := fun rest => ∀ a,
    Never (f a) rest) ended lost fun rest dead' a => dead rest a dead').bind
    (fun a a' mid _ same => behind a a' mid same) fun more a _ never =>
      (never a).dooms (vain more)

theorem stepsWithin_ended {step' : α' → Parser α'} {a : α} {a' : α'}
    (alike : R a a') (ended : t ≠ [] → Misses (step' a') t ∨ E [])
    (bound' : List Char) (offset offset' : Nat) :
    Joined t R E F (.found a ⟨[], offset⟩) (stepsWithin step' bound' a' ⟨t,
      offset'⟩).result := by
  by_cases more : t = []
  · subst more
    cases bound' <;> exact .found alike rfl
  · obtain missed | dead := ended more
    · rw [stepsWithin_missed missed]
      exact .found alike rfl
    · exact .doomed more (.found dead)

theorem Joins.stepsWithin {step : α → Parser α} {step' : α' → Parser α'}
    (takes : ∀ a, Takes 1 (step a))
    (h : ∀ a a' mid, R a a' → Joins t R D (E mid) (step a) (step' a') mid)
    (ended : t ≠ [] → ∀ a', Misses (step' a') t ∨ E [])
    (stuck : ∀ mid, D mid → E mid ∧ (mid = [] ∨ ∀ a, Never (step a) mid))
    (bound bound' : List Char) {a : α} {a' : α'} (alike : R a a')
    (enough : cs.length ≤ bound.length)
    (more : cs.length + t.length ≤ bound'.length) :
    Joins t R E F (stepsWithin step bound a) (stepsWithin step' bound' a')
      cs := by
  -- The first run has a character of `bound` for each of its steps.
  induction bound generalizing bound' cs a a' with
  | nil =>
      intro offset offset'
      obtain rfl : cs = [] :=
        List.eq_nil_of_length_eq_zero (by simpa using enough)
      exact stepsWithin_ended alike (fun filled => ended filled a') bound'
        offset offset'
  | cons b bound ih =>
      intro offset offset'
      by_cases empty : cs = []
      · subst empty
        exact stepsWithin_ended alike (fun filled => ended filled a') bound'
          offset offset'
      · obtain ⟨c, r, rfl⟩ := List.exists_cons_of_ne_nil empty
        cases bound' with
        | nil => simp at more
        | cons b' bound' =>
            have joined := h a a' (c :: r) alike offset offset'
            rw [result_stepsWithin, result_stepsWithin, if_neg (by simp),
              if_neg (by simp)]
            cases outcome : (step a ⟨c :: r, offset⟩).result with
            | found a₁ next =>
                rw [outcome] at joined
                generalize (step' a' ⟨c :: r ++ t, offset'⟩).result = r'
                  at joined
                have taken := takes a _ _ _ outcome
                simp only [List.length_cons] at taken enough more
                cases joined with
                | @found _ a₁' _ next' same rest =>
                    have behind :
                        Joins t R E F (Parser.stepsWithin step bound a₁)
                          (Parser.stepsWithin step' bound' a₁') next.rest :=
                      ih bound' same (by omega) (by omega)
                    have joined := behind next.offset next'.offset
                    rw [← rest] at joined
                    exact joined
                | doomed filled doom =>
                    cases doom with
                    | found gone =>
                        obtain ⟨dead, stuck⟩ := stuck next.rest gone
                        exact .doomed filled
                          (dooms_stepsWithin dead stuck bound a₁ next.offset)
            | missed =>
                rw [outcome] at joined
                generalize (step' a' ⟨c :: r ++ t, offset'⟩).result = r'
                  at joined
                cases joined with
                | missed => exact .found alike rfl
                | doomed filled doom =>
                    cases doom with
                    | missed dead => exact .doomed filled (.found dead)
            | tooDeep => exact .tooDeep _

theorem Joins.steps {step : α → Parser α} {step' : α' → Parser α'}
    (takes : ∀ a, Takes 1 (step a))
    (h : ∀ a a' mid, R a a' → Joins t R D (E mid) (step a) (step' a') mid)
    (ended : t ≠ [] → ∀ a', Misses (step' a') t ∨ E [])
    (stuck : ∀ mid, D mid → E mid ∧ (mid = [] ∨ ∀ a, Never (step a) mid))
    {a : α} {a' : α'} (alike : R a a') :
    Joins t R E F (steps step a) (steps step' a') cs :=
  fun offset offset' =>
    Joins.stepsWithin takes h ended stuck cs (cs ++ t) alike (Nat.le_refl _)
      (by simp) offset offset'

theorem Joins.many (takes : Takes 1 p) (h : ∀ mid, Joins t R D (E mid) p p' mid)
    (ended : t ≠ [] → Misses p' t ∨ E [])
    (stuck : ∀ mid, D mid → E mid ∧ (mid = [] ∨ Never p mid)) :
    Joins t (List.Forall₂ R) E F (many p) (many p') cs := by
  refine Joins.map (R := List.Forall₂ R)
    (Joins.steps (D := D) (fun found => takes.map (· :: found)) ?_ ?_ ?_ .nil)
    ?_
  · exact fun found found' mid same => (h mid).map fun a a' alike =>
      .cons alike same
  · exact fun more found' => (ended more).imp (fun missed => missed.bind) id
  · exact fun mid dead => (stuck mid dead).imp id
      (Or.imp id fun never found => never.bind)
  · exact fun found found' same => List.rel_reverse same

end Joins

/-! ## Parsers that find nothing behind a gap that was cut -/

def Idle (g : Gap) (p : Parser α) : Prop := ∀ cs, g.Cut cs → Never p cs

namespace Idle

variable {g : Gap} {p q : Parser α} {f : α → Parser β}

theorem bind (h : Idle g p) : Idle g (p >>= f) := fun cs cut => (h cs cut).bind

theorem gap (h : Idle g p) (g' : Gap) : Idle g (do Source.gap g'; p) := by
  intro cs cut
  refine Never.gap ?_
  rw [Gap.behind_cut cut]
  exact h cs cut

theorem orElse (hp : Idle g p) (hq : Idle g q) : Idle g (p <|> q) :=
  fun cs cut => (hp cs cut).orElse (hq cs cut)

theorem optional {f : Option α → Parser β} (h : Idle g p)
    (behind : Idle g (f none)) : Idle g (optional p >>= f) := by
  refine fun cs cut => never_bind fun offset a next found => ?_
  rw [result_optional] at found
  split at found
  · cases found
    exact behind cs cut
  · rcases Found.elim_eq_found found with ⟨b, mid, first, -⟩ | ⟨-, last⟩
    · exact (h cs cut offset b mid first).elim
    · cases last
      exact behind cs cut

end Idle

theorem Gap.Cut.eq {g : Gap} {cs : List Char} (cut : g.Cut cs) :
    cs = [] ∨ ∃ r, cs = '\\' :: r := by
  obtain (rfl | rfl) | ⟨-, rfl⟩ := cut
  · exact .inr ⟨_, rfl⟩
  · exact .inr ⟨_, rfl⟩
  · exact .inl rfl

theorem operator_misses_nil {ops : List (Operator α)} {c : Char}
    (h : startOtherwise ops c = true) : Misses (operator ops) [] := by
  refine operator_misses fun op inside => ?_
  have start := List.all_eq_true.1 h op inside
  unfold Operator.scan
  cases text : op.text.toList with
  | nil =>
      rw [text] at start
      contradiction
  | cons f front => rfl

theorem idle_operator {ops : List (Operator α)}
    (other : startOtherwise ops '\\' = true) (g : Gap) :
    Idle g (operator ops) := by
  intro cs cut
  obtain rfl | ⟨r, rfl⟩ := cut.eq
  · exact (operator_misses_nil other).never
  · exact (operator_misses_at other).never

theorem idle_symbol {text : String}
    (other : startOtherwise [(⟨text, [], ()⟩ : Operator Unit)] '\\' = true)
    (g : Gap) :
    Idle g (symbol text) :=
  (idle_operator other g).bind

theorem idle_token {scan : Scanner} (ended : scan [] = none)
    (torn : ∀ r, scan ('\\' :: r) = none) (g : Gap) :
    Idle g (token scan) := by
  intro cs cut
  obtain rfl | ⟨r, rfl⟩ := cut.eq
  · exact (token_misses ended).never
  · exact (token_misses (torn r)).never

theorem idle_words {words : List String} (proper : areWords words = true)
    (ended : scanWord words [] = none) (g : Gap) :
    Idle g (token (scanWord words)) :=
  idle_token ended (fun _ => scanWord_misses_at proper (by decide)) g

theorem idle_name (g : Gap) : Idle g name :=
  idle_token (by decide) (fun r => by
    simp [scanFreeName, scanName, isNameStart, Text.isAsciiWord]) g

/-! ## Gaps and tokens -/

section Tokens

variable {t : List Char} (newline : OnNewLine t) {R : α → α' → Prop}
    {D : List Char → Prop} {F : Prop} {p : Parser α} {p' : Parser α'}
    {cs : List Char}

include newline

theorem Joins.gap (g : Gap) (lost : t ≠ [] → g.Cut (g.behind cs) →
    Dooms D F p (g.behind cs)) (h : t = [] ∨ ¬g.Cut (g.behind cs) →
    Joins t R D F p p' (g.behind cs)) :
    Joins t R D F (do Source.gap g; p) (do Source.gap g; p') cs := by
  intro offset offset'
  rw [result_gap_bind, result_gap_bind]
  by_cases whole : t = [] ∨ ¬g.Cut (g.behind cs)
  · rw [Gap.behind_append newline whole]
    exact h whole _ _
  · rw [not_or, not_not] at whole
    exact .doomed whole.1 (lost whole.1 whole.2 _)

theorem Joins.behind {g : Gap} (idle : Idle g p)
    (lost : t ≠ [] → g.Cut (g.behind cs) → F)
    (h : Joins t R D F p p' (g.behind cs)) :
    Joins t R D F (do Source.gap g; p) (do Source.gap g; p') cs :=
  .gap newline g (fun more cut => (idle _ cut).dooms (lost more cut)) fun _ => h

omit newline in
theorem joins_token {scan : Scanner} (proper : Proper scan)
    (same : scan (cs ++ t) = scan cs) :
    Joins t (fun a a' => a.text = a'.text) D F (token scan)
      (token scan) cs := by
  intro offset offset'
  unfold Parser.token
  dsimp only
  rw [same]
  split
  · rename_i n scanned
    have inside := (proper cs n scanned).2
    refine .found ?_ (List.drop_append_of_le_length inside)
    rw [List.take_append_of_le_length inside]
  · exact .missed

theorem joins_name : Joins t (fun a a' => a.text = a'.text) D F name name cs :=
  joins_token proper_scanFreeName (scanFreeName_newline newline cs)

theorem joins_operator {ops : List (Operator β)}
    (inline : ops.all Operator.isInline = true) :
    Joins t (fun a a' => a.1 = a'.1 ∧
      a.2.text = a'.2.text) D F (operator ops) (operator ops) cs := by
  intro offset offset'
  unfold operator
  dsimp only
  rw [find?_scan_newline newline inline]
  split
  · rename_i op found
    have there := List.find?_some found
    obtain ⟨rest, front⟩ := op.scan_front there
    have inside : op.text.length ≤ cs.length := by
      rw [front, List.length_append, String.length_toList]
      omega
    exact .found ⟨rfl, rfl⟩ (List.drop_append_of_le_length inside)
  · exact .missed

omit newline in
theorem joins_requireSilently {holds : List Char → Bool}
    (same : holds (cs ++ t) = holds cs) :
    Joins t (fun _ _ => True) D F (requireSilently holds)
      (requireSilently holds) cs := by
  intro offset offset'
  unfold Parser.requireSilently
  dsimp only
  rw [same]
  split
  · exact .found trivial rfl
  · exact .missed

omit newline in
theorem joins_require {holds : List Char → Bool}
    (same : holds (cs ++ t) = holds cs) :
    Joins t (fun _ _ => True) D F (require holds) (require holds) cs := by
  intro offset offset'
  unfold Parser.require
  dsimp only
  rw [same]
  split
  · exact .found trivial rfl
  · exact .missed

/-! ### What follows a token -/

variable {S : β → β' → Prop} {q : Parser β} {q' : Parser β'}

omit newline in
theorem Leaves.token {scan : Scanner} {w : Word} {rest : List Char}
    (h : Leaves (token scan) cs w rest) :
    ∃ n, scan cs = some n ∧ rest = cs.drop n := by
  obtain ⟨offset, next, found, rfl⟩ := h
  unfold Parser.token at found
  split at found
  · rename_i n scanned
    cases found
    exact ⟨n, scanned, rfl⟩
  · contradiction

omit newline in
theorem dooms_token {scan : Scanner} {E : List Char → Prop}
    {f : Word → Parser β} {n : Nat} (scanned : scan cs = some n)
    (h : ∀ w, Dooms E F (f w) (cs.drop n)) :
    Dooms E F (Parser.token scan >>= f) cs := by
  intro offset
  rw [result_bind, Parser.token, scanned]
  exact h _ _

omit newline in
theorem Leaves.operator {ops : List (Operator β)} {a : β × Word}
    {rest : List Char} (h : Leaves (operator ops) cs a rest) :
    ∃ op ∈ ops, (op.scan cs).isSome = true ∧ a.1 = op.meaning ∧
    cs = op.text.toList ++ rest := by
  obtain ⟨value, word⟩ := a
  obtain ⟨offset, next, found, rfl⟩ := h
  obtain ⟨op, inside, there, meaning, rfl⟩ := operator_found found
  obtain ⟨rest, front⟩ := op.scan_front there
  refine ⟨op, inside, there, meaning, ?_⟩
  change cs = op.text.toList ++ rest at front
  rw [Cursor.drop, ← String.length_toList]
  subst front
  rw [List.drop_left]

omit newline in
theorem Leaves.any {ops : List (Operator β)} {a : β × Word} {rest : List Char}
    (h : Leaves (Source.operator ops) cs a rest) :
    ops.any (fun op => (op.scan cs).isSome) = true := by
  obtain ⟨op, inside, there, -⟩ := h.operator
  exact List.any_eq_true.2 ⟨op, inside, there⟩

omit newline in
theorem Leaves.symbol {text : String} {u : Unit} {rest : List Char}
    (h : Leaves (Source.symbol text) cs u rest) :
    cs = text.toList ++ rest := by
  obtain ⟨offset, next, found, rfl⟩ := h
  obtain ⟨a, mid, first, last⟩ := bind_eq_found found
  cases last
  obtain ⟨op, inside, -, -, front⟩ := Leaves.operator ⟨offset, next, first, rfl⟩
  rw [List.mem_singleton] at inside
  subst inside
  exact front

omit newline in
theorem Leaves.require {holds : List Char → Bool} {u : Unit} {rest : List Char}
    (h : Leaves (require holds) cs u rest) :
    rest = cs ∧ holds cs = true := by
  obtain ⟨offset, next, found, rfl⟩ := h
  unfold Parser.require at found
  split at found
  · rename_i held
    cases found
    exact ⟨rfl, held⟩
  · contradiction

omit newline in
theorem Joins.require {holds : List Char → Bool}
    (same : holds (cs ++ t) = holds cs)
    (h : holds cs = true → Joins t S D F q q' cs) :
    Joins t S D F (do require holds; q) (do require holds; q') cs := by
  refine (joins_require (D := fun _ => False) same).bind
    (fun _ _ mid left _ => ?_) fun _ _ _ => False.elim
  obtain ⟨rfl, held⟩ := left.require
  exact h held

omit newline in
theorem Joins.token {scan : Scanner} {f : Word → Parser β}
    {f' : Word → Parser β'} (proper : Proper scan)
    (same : scan (cs ++ t) = scan cs)
    (h : ∀ w w' mid, Leaves (token scan) cs w mid → w.text = w'.text →
      Joins t S D F (f w) (f' w') mid) :
    Joins t S D F (token scan >>= f) (token scan >>= f') cs :=
  (joins_token (D := fun _ => False) proper same).bind h fun _ _ _ dead =>
    dead.elim

theorem Joins.words {words : List String} {f : Word → Parser β}
    {f' : Word → Parser β'} (proper : areWords words = true)
    (h : ∀ w w' mid, Leaves (Parser.token (scanWord words)) cs w mid →
      w.text = w'.text → Joins t S D F (f w) (f' w') mid) :
    Joins t S D F (Parser.token (scanWord words) >>= f)
      (Parser.token (scanWord words) >>= f') cs :=
  .token (proper_scanWord proper) (scanWord_newline newline words cs) h

theorem Joins.name {f : Word → Parser β} {f' : Word → Parser β'}
    (h : ∀ w w' mid, Leaves name cs w mid → w.text = w'.text →
      Joins t S D F (f w) (f' w') mid) :
    Joins t S D F (name >>= f) (name >>= f') cs :=
  .token proper_scanFreeName (scanFreeName_newline newline cs) h

theorem Joins.operator {γ : Type} {ops : List (Operator γ)}
    {f : γ × Word → Parser β} {f' : γ × Word → Parser β'}
    (inline : ops.all Operator.isInline = true)
    (h : ∀ a a' mid, Leaves (operator ops) cs a mid → a.1 = a'.1 →
      Joins t S D F (f a) (f' a') mid) :
    Joins t S D F (operator ops >>= f) (operator ops >>= f') cs :=
  (joins_operator (D := fun _ => False) newline inline).bind
    (fun a a' mid left same => h a a' mid left same.1) fun _ _ _ dead =>
      dead.elim

theorem Joins.symbolNotBefore {text : String} {notBefore : List Char}
    (inline : (Operator.mk text notBefore ()).isInline = true)
    (h : ∀ mid, (∀ c ∈ mid.head?, notBefore.contains c = false) →
      cs = text.toList ++ mid → Joins t S D F q q' mid) :
    Joins t S D F (do symbolNotBefore text notBefore; q)
      (do symbolNotBefore text notBefore; q') cs := by
  refine Joins.bind (R := fun _ _ => True) (D := fun _ => False)
    ((joins_operator newline ?_).map fun _ _ _ => trivial)
    (fun _ _ mid left _ => ?_) fun _ _ _ dead => dead.elim
  · simpa using inline
  · obtain ⟨offset, next, found, rfl⟩ := left
    obtain ⟨a, mid, first, last⟩ := bind_eq_found found
    cases last
    obtain ⟨op, inside, there, -, front⟩ :=
      Leaves.operator ⟨offset, next, first, rfl⟩
    rw [List.mem_singleton] at inside
    subst inside
    obtain ⟨rest, front', free⟩ := Operator.scan_isSome there
    obtain rfl : next.rest = rest :=
      List.append_cancel_left (front.symm.trans front')
    exact h next.rest free front

theorem Joins.symbol {text : String}
    (inline : (Operator.mk text [] ()).isInline = true)
    (h : ∀ mid, cs = text.toList ++ mid → Joins t S D F q q' mid) :
    Joins t S D F (do symbol text; q) (do symbol text; q') cs :=
  .symbolNotBefore newline inline fun mid _ front => h mid front

end Tokens

end Awk.Source
