import Awk.Source.Parse

/-!
# What parsers find

A parser finds something at the front of a text, misses it, or meets a text that
is nested too deeply.  Whether it does so depends on the text alone and not on
where the text stands, so the three outcomes are stated for every offset,
together with what is known of the value that is found.  Each combinator has a
lemma for each of its ways to end.
-/

namespace Awk.Source

open Awk.Source.Parser
    (Scanner token require requireSilently optional many steps stepsWithin)

variable {α β : Type}

/-- What is said of all characters in a list is decided by the list, and not by
trying all characters that there are. -/
instance (priority := high) decidableListed (l : List Char) (P : Char → Prop)
    [DecidablePred P] : Decidable (∀ c ∈ l, P c) :=
  List.decidableBAll P l

def Finds (p : Parser α) (cs : List Char) (P : α → Prop) (rest : List Char) :
    Prop :=
  ∀ offset, ∃ a offset', (p ⟨cs, offset⟩).result = .found a ⟨rest, offset'⟩ ∧
    P a

def Misses (p : Parser α) (cs : List Char) : Prop :=
  ∀ offset, (p ⟨cs, offset⟩).result = .missed

def Sinks (p : Parser α) (cs : List Char) : Prop :=
  ∀ offset, (p ⟨cs, offset⟩).result = .tooDeep

def Agree (p q : Parser α) (cs : List Char) : Prop :=
  ∀ offset, (p ⟨cs, offset⟩).result = (q ⟨cs, offset⟩).result

/-! ## Sequences -/

section Sequences

variable {p : Parser α} {f : α → Parser β} {cs mid rest : List Char}
    {P : α → Prop} {R : β → Prop} {offset : Nat}

theorem bind_found {a : α} {next : Cursor}
    (first : (p ⟨cs, offset⟩).result = .found a next) :
    ((p >>= f) ⟨cs, offset⟩).result = (f a next).result := by
  change (Parser.bind p f ⟨cs, offset⟩).result = _
  unfold Parser.bind
  generalize p ⟨cs, offset⟩ = attempt at first
  obtain ⟨result, reach⟩ := attempt
  cases first
  rfl

theorem bind_missed (first : (p ⟨cs, offset⟩).result = .missed) :
    ((p >>= f) ⟨cs, offset⟩).result = .missed := by
  change (Parser.bind p f ⟨cs, offset⟩).result = _
  unfold Parser.bind
  generalize p ⟨cs, offset⟩ = attempt at first
  obtain ⟨result, reach⟩ := attempt
  cases first
  rfl

theorem bind_tooDeep (first : (p ⟨cs, offset⟩).result = .tooDeep) :
    ((p >>= f) ⟨cs, offset⟩).result = .tooDeep := by
  change (Parser.bind p f ⟨cs, offset⟩).result = _
  unfold Parser.bind
  generalize p ⟨cs, offset⟩ = attempt at first
  obtain ⟨result, reach⟩ := attempt
  cases first
  rfl

theorem Finds.bind (first : Finds p cs P mid)
    (second : ∀ a, P a → Finds (f a) mid R rest) :
    Finds (p >>= f) cs R rest := by
  intro offset
  obtain ⟨a, offset', found, known⟩ := first offset
  obtain ⟨b, offset'', found', known'⟩ := second a known offset'
  exact ⟨b, offset'', (bind_found found).trans found', known'⟩

theorem Finds.bind_misses (first : Finds p cs P mid)
    (second : ∀ a, P a → Misses (f a) mid) : Misses (p >>= f) cs := by
  intro offset
  obtain ⟨a, offset', found, known⟩ := first offset
  exact (bind_found found).trans (second a known offset')

theorem Finds.bind_sinks (first : Finds p cs P mid)
    (second : ∀ a, P a → Sinks (f a) mid) : Sinks (p >>= f) cs := by
  intro offset
  obtain ⟨a, offset', found, known⟩ := first offset
  exact (bind_found found).trans (second a known offset')

theorem Misses.bind (first : Misses p cs) : Misses (p >>= f) cs :=
  fun offset => bind_missed (first offset)

theorem Sinks.bind (first : Sinks p cs) : Sinks (p >>= f) cs :=
  fun offset => bind_tooDeep (first offset)

theorem finds_pure {a : α} (known : P a) : Finds (Pure.pure a) cs P cs :=
  fun offset => ⟨a, offset, rfl, known⟩

theorem Finds.imp {S : α → Prop} (h : Finds p cs P rest)
    (weaker : ∀ a, P a → S a) : Finds p cs S rest := by
  intro offset
  obtain ⟨a, offset', found, known⟩ := h offset
  exact ⟨a, offset', found, weaker a known⟩

theorem Finds.map {g : α → β} (h : Finds p cs P rest)
    (known : ∀ a, P a → R (g a)) :
    Finds (do let a ← p; return g a) cs R rest :=
  h.bind fun a ha => finds_pure (known a ha)

end Sequences

/-! ## Choices -/

section Choices

variable {p q : Parser α} {cs rest : List Char} {P : α → Prop}

theorem Misses.orElse (h : Misses p cs) : Agree (p <|> q) q cs := by
  intro offset
  have missed := h offset
  change (Parser.orElse p q ⟨cs, offset⟩).result = _
  unfold Parser.orElse
  generalize p ⟨cs, offset⟩ = attempt at missed
  obtain ⟨result, reach⟩ := attempt
  cases missed
  rfl

theorem Agree.trans {r : Parser α} (h : Agree p q cs) (h' : Agree q r cs) :
    Agree p r cs :=
  fun offset => (h offset).trans (h' offset)

theorem Agree.finds (h : Agree p q cs) (found : Finds q cs P rest) :
    Finds p cs P rest := by
  intro offset
  rw [h offset]
  exact found offset

theorem Agree.misses (h : Agree p q cs) (missed : Misses q cs) : Misses p cs :=
  fun offset => (h offset).trans (missed offset)

theorem Agree.sinks (h : Agree p q cs) (deep : Sinks q cs) : Sinks p cs :=
  fun offset => (h offset).trans (deep offset)

theorem Agree.bind {f : α → Parser β} (h : Agree p q cs) :
    Agree (p >>= f) (q >>= f) cs := by
  intro offset
  have same := h offset
  cases first : (q ⟨cs, offset⟩).result with
  | found a next => rw [bind_found (same.trans first), bind_found first]
  | missed => rw [bind_missed (same.trans first), bind_missed first]
  | tooDeep => rw [bind_tooDeep (same.trans first), bind_tooDeep first]

theorem Finds.orElse (h : Finds p cs P rest) : Finds (p <|> q) cs P rest := by
  intro offset
  obtain ⟨a, offset', found, known⟩ := h offset
  refine ⟨a, offset', ?_, known⟩
  change (Parser.orElse p q ⟨cs, offset⟩).result = _
  unfold Parser.orElse
  generalize p ⟨cs, offset⟩ = attempt at found
  obtain ⟨result, reach⟩ := attempt
  cases found
  rfl

theorem Sinks.orElse (h : Sinks p cs) : Sinks (p <|> q) cs := by
  intro offset
  have deep := h offset
  change (Parser.orElse p q ⟨cs, offset⟩).result = _
  unfold Parser.orElse
  generalize p ⟨cs, offset⟩ = attempt at deep
  obtain ⟨result, reach⟩ := attempt
  cases deep
  rfl

theorem Finds.optional {c : Char} (h : Finds p (c :: cs) P rest) :
    Finds (optional p) (c :: cs) (fun a => ∃ b, a = some b ∧ P b) rest := by
  intro offset
  obtain ⟨a, offset', found, known⟩ := h offset
  refine ⟨some a, offset', ?_, a, rfl, known⟩
  unfold Parser.optional
  generalize p ⟨c :: cs, offset⟩ = attempt at found
  obtain ⟨result, reach⟩ := attempt
  cases found
  rfl

theorem Sinks.optional {c : Char} (h : Sinks p (c :: cs)) :
    Sinks (optional p) (c :: cs) := by
  intro offset
  have deep := h offset
  unfold Parser.optional
  generalize p ⟨c :: cs, offset⟩ = attempt at deep
  obtain ⟨result, reach⟩ := attempt
  cases deep
  rfl

theorem Misses.optional (h : Misses p cs) :
    Finds (optional p) cs (· = none) cs := by
  intro offset
  refine ⟨none, offset, ?_, rfl⟩
  have missed := h offset
  unfold Parser.optional
  generalize p ⟨cs, offset⟩ = attempt at missed
  obtain ⟨result, reach⟩ := attempt
  cases missed
  cases cs <;> rfl

end Choices

/-! ## Repetitions -/

section Repetitions

variable {step : α → Parser α} {cs mid rest : List Char} {a : α} {P : α → Prop}

theorem stepsWithin_stop (stop : rest = [] ∨ Misses (step a) rest)
    (bound : List Char) :
    Finds (stepsWithin step bound a) rest (· = a) rest := by
  intro offset
  refine ⟨a, offset, ?_, rfl⟩
  cases bound with
  | nil => rfl
  | cons _ bound =>
      rcases stop with rfl | missed
      · rfl
      · have missed := missed offset
        unfold stepsWithin
        generalize step a ⟨rest, offset⟩ = attempt at missed
        obtain ⟨result, reach⟩ := attempt
        cases missed
        cases rest <;> rfl

theorem stepsWithin_next {c : Char} {b : Char} {bound : List Char}
    {Q : α → Prop} (first : Finds (step a) (c :: cs) P mid)
    (next : ∀ a', P a' → Finds (stepsWithin step bound a') mid Q rest) :
    Finds (stepsWithin step (b :: bound) a) (c :: cs) Q rest := by
  intro offset
  obtain ⟨a', offset', found, known⟩ := first offset
  obtain ⟨a'', offset'', found', known'⟩ := next a' known offset'
  refine ⟨a'', offset'', ?_, known'⟩
  unfold stepsWithin
  generalize step a ⟨c :: cs, offset⟩ = attempt at found
  obtain ⟨result, reach⟩ := attempt
  cases found
  exact found'

theorem steps_none (stop : rest = [] ∨ Misses (step a) rest) :
    Finds (steps step a) rest (· = a) rest :=
  stepsWithin_stop stop rest

theorem steps_once {c : Char} (first : Finds (step a) (c :: cs) P rest)
    (stop : ∀ a', P a' → rest = [] ∨ Misses (step a') rest) :
    Finds (steps step a) (c :: cs) P rest :=
  fun offset => stepsWithin_next first (fun a' known =>
    (stepsWithin_stop (stop a' known) cs).imp fun _ h => h ▸ known) offset

theorem stepsWithin_sinks {c b : Char} {bound : List Char}
    (deep : Sinks (step a) (c :: cs)) :
    Sinks (stepsWithin step (b :: bound) a) (c :: cs) := by
  intro offset
  have deep := deep offset
  unfold stepsWithin
  generalize step a ⟨c :: cs, offset⟩ = attempt at deep
  obtain ⟨result, reach⟩ := attempt
  cases deep
  rfl

theorem stepsWithin_next_sinks {c b : Char} {bound : List Char}
    (first : Finds (step a) (c :: cs) P mid)
    (next : ∀ a', P a' → Sinks (stepsWithin step bound a') mid) :
    Sinks (stepsWithin step (b :: bound) a) (c :: cs) := by
  intro offset
  obtain ⟨a', offset', found, known⟩ := first offset
  have deep := next a' known offset'
  unfold stepsWithin
  generalize step a ⟨c :: cs, offset⟩ = attempt at found
  obtain ⟨result, reach⟩ := attempt
  cases found
  exact deep

end Repetitions

/-! ## Texts that may nest too deeply -/

/-- A parser finds a value as described if the text fits, and otherwise the text
is nested too deeply. -/
structure Yields (fits : Prop) (p : Parser α) (cs : List Char) (P : α → Prop)
    (rest : List Char) : Prop where
  finds : fits → Finds p cs P rest
  sinks : ¬fits → Sinks p cs

section Yields

variable {fits fits' : Prop} {p q : Parser α} {f : α → Parser β}
    {cs mid rest : List Char} {P : α → Prop} {R : β → Prop}

theorem Yields.iff (h : Yields fits p cs P rest) (same : fits ↔ fits') :
    Yields fits' p cs P rest :=
  ⟨fun yes => h.finds (same.2 yes),
    fun no => h.sinks fun yes => no (same.1 yes)⟩

theorem Finds.fitting (yes : fits) (h : Finds p cs P rest) :
    Yields fits p cs P rest :=
  ⟨fun _ => h, fun no => absurd yes no⟩

theorem Yields.imp {S : α → Prop} (h : Yields fits p cs P rest)
    (weaker : ∀ a, P a → S a) : Yields fits p cs S rest :=
  ⟨fun yes => (h.finds yes).imp weaker, h.sinks⟩

theorem Yields.bind (first : Yields fits p cs P mid)
    (second : fits → ∀ a, P a → Yields fits' (f a) mid R rest) :
    Yields (fits ∧ fits') (p >>= f) cs R rest := by
  constructor
  · rintro ⟨yes, yes'⟩
    exact (first.finds yes).bind fun a known => (second yes a known).finds yes'
  · intro no
    by_cases yes : fits
    · exact (first.finds yes).bind_sinks fun a known =>
        (second yes a known).sinks fun yes' => no ⟨yes, yes'⟩
    · exact (first.sinks yes).bind

theorem Yields.andThen (first : Yields fits p cs P mid)
    (second : fits → ∀ a, P a → Finds (f a) mid R rest) :
    Yields fits (p >>= f) cs R rest :=
  ⟨fun yes => (first.finds yes).bind (second yes),
    fun no => (first.sinks no).bind⟩

theorem Finds.yields (first : Finds p cs P mid)
    (second : ∀ a, P a → Yields fits (f a) mid R rest) :
    Yields fits (p >>= f) cs R rest :=
  ⟨fun yes => first.bind fun a known => (second a known).finds yes,
    fun no => first.bind_sinks fun a known => (second a known).sinks no⟩

theorem Yields.map {g : α → β} (h : Yields fits p cs P rest)
    (known : ∀ a, P a → R (g a)) :
    Yields fits (do let a ← p; return g a) cs R rest :=
  h.andThen fun _ a ha => finds_pure (known a ha)

theorem Yields.orElse (h : Yields fits p cs P rest) :
    Yields fits (p <|> q) cs P rest :=
  ⟨fun yes => (h.finds yes).orElse, fun no => (h.sinks no).orElse⟩

theorem Agree.yields (agree : Agree p q cs) (h : Yields fits q cs P rest) :
    Yields fits p cs P rest :=
  ⟨fun yes => agree.finds (h.finds yes), fun no => agree.sinks (h.sinks no)⟩

theorem Yields.optional {c : Char} (h : Yields fits p (c :: cs) P rest) :
    Yields fits (Parser.optional p) (c :: cs) (fun a => ∃ b, a = some b ∧
      P b) rest :=
  ⟨fun yes => (h.finds yes).optional, fun no => (h.sinks no).optional⟩

variable {step : α → Parser α} {a : α} {c b : Char} {bound : List Char}
    {Q : α → Prop}

theorem Yields.next (first : Yields fits (step a) (c :: cs) P mid)
    (second : fits → ∀ a', P a' →
      Yields fits' (stepsWithin step bound a') mid Q rest) :
    Yields (fits ∧ fits') (stepsWithin step (b :: bound) a)
      (c :: cs) Q rest := by
  constructor
  · rintro ⟨yes, yes'⟩
    exact stepsWithin_next (first.finds yes) fun a' known =>
      (second yes a' known).finds yes'
  · intro no
    by_cases yes : fits
    · exact stepsWithin_next_sinks (first.finds yes) fun a' known =>
        (second yes a' known).sinks fun yes' => no ⟨yes, yes'⟩
    · exact stepsWithin_sinks (first.sinks yes)

theorem Yields.once (first : Yields fits (step a) (c :: cs) P rest)
    (stop : fits → ∀ a', P a' → rest = [] ∨ Misses (step a') rest) :
    Yields fits (steps step a) (c :: cs) P rest := by
  constructor
  · intro yes
    exact steps_once (first.finds yes) (stop yes)
  · intro no offset
    exact stepsWithin_sinks (first.sinks no) offset

end Yields

end Awk.Source
