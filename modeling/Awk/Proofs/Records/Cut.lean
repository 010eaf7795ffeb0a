import Awk.Proofs.Operations

/-!
# How an input is cut

Patterns are kept when they have been compiled, so that what an input is cut
into could depend on the patterns that were used before.  It does not, since
every pattern that is kept is what its text compiles to: the records are those
of the text and of the separator at the moment when the first one is needed, and
they are the same from then on.
-/

namespace Awk

namespace Regex.Cache

/-- Every pattern that is kept is what its text and flags compile to. -/
def Coherent (c : Cache) : Prop :=
  ∀ (k : Key) p, c.patterns[k]? = some p → k.compile = .ok p

theorem coherent_empty : Coherent {} := by
  intro k p kept
  simp at kept

variable {c c' : Cache} {k : Key} {p : Pattern}

theorem Coherent.keep (coherent : c.Coherent) (compiled : k.compile = .ok p) :
    (c.keep k p).Coherent := by
  have room : (if maxCached ≤ c.size then ({} : Cache) else c).Coherent := by
    split
    · exact coherent_empty
    · exact coherent
  intro k' p' kept
  simp only [Cache.keep, Std.HashMap.getElem?_insert] at kept
  split at kept
  · rename_i same
    obtain rfl : k = k' := by simpa using same
    obtain rfl : p = p' := by simpa using kept
    exact compiled
  · exact room k' p' kept

theorem Coherent.lookup (coherent : c.Coherent)
    (looked : c.lookup k = .ok (p, c')) :
    k.compile = .ok p ∧ c'.Coherent := by
  unfold Cache.lookup at looked
  split at looked
  · rename_i p' kept
    obtain ⟨rfl, rfl⟩ : p' = p ∧ c = c' := by simpa using looked
    exact ⟨coherent k p' kept, coherent⟩
  · split at looked
    · rename_i p' compiled
      obtain ⟨rfl, rfl⟩ : p' = p ∧ c.keep k p' = c' := by simpa using looked
      exact ⟨compiled, coherent.keep compiled⟩
    · contradiction

end Regex.Cache

theorem Change.coherent {m m' : Machine} (step : Change m m')
    (coherent : m.regexes.Coherent) :
    m'.regexes.Coherent := by
  cases step with
  | regexes c looked => exact (coherent.lookup looked).2
  | _ => exact coherent

namespace Exec

variable {m m' : Machine}

theorem regex_cases {pattern : String}
    {found : Except Regex.PatternError Regex.Pattern}
    (coherent : m.regexes.Coherent) (h : regex pattern m = .ok found m') :
    found = Regex.compile pattern ∧ ∃ c, c.Coherent ∧
    m' = { m with regexes := c } := by
  cases looked : m.regexes.lookup { text := pattern } with
  | ok entry =>
      rw [regex_ok looked] at h
      cases h
      obtain ⟨compiled, kept⟩ := coherent.lookup looked
      exact ⟨compiled.symm, entry.2, kept, rfl⟩
  | error e =>
      rw [regex_error looked] at h
      cases h
      exact ⟨(lookup_error looked).symm, m.regexes, coherent, rfl⟩

/-- What a text is cut into depends on the separator alone. -/
theorem recordsWith_cases {text separator : String} {lines : List String}
    (coherent : m.regexes.Coherent)
    (h : recordsWith text separator m = .ok lines m') :
    Splitter.recordsWith Regex.compile text separator = .ok lines ∧
      ∃ c, c.Coherent ∧ m' = { m with regexes := c } := by
  unfold recordsWith at h
  unfold Splitter.recordsWith
  by_cases blank : text = ""
  · rw [if_pos blank] at h ⊢
    cases h
    exact ⟨rfl, m.regexes, coherent, rfl⟩
  rw [if_neg blank] at h ⊢
  by_cases paragraphs : separator = ""
  · rw [if_pos paragraphs] at h ⊢
    cases h
    exact ⟨rfl, m.regexes, coherent, rfl⟩
  rw [if_neg paragraphs] at h ⊢
  cases simple : Splitter.ofRecordSeparator? separator with
  | some s =>
      simp only [simple] at h
      cases h
      exact ⟨rfl, m.regexes, coherent, rfl⟩
  | none =>
      simp only [simple] at h
      obtain ⟨found, m₁, looked, rest⟩ := bind_eq_ok.1 h
      obtain ⟨rfl, c, kept, rfl⟩ := regex_cases coherent looked
      cases cutter : Splitter.ofPattern separator (Regex.compile separator) with
      | ok s =>
          rw [cutter] at rest
          cases rest
          exact ⟨rfl, c, kept, rfl⟩
      | error e =>
          rw [cutter] at rest
          cases rest

theorem records_eq_ok {found : Option (Array String)}
    (h : records m = .ok found m') :
    (found = none ∧ m.input.text = none ∧ m.input.records = none ∧ m' = m) ∨
    (∃ records, found = some records ∧ m.input.records = some records ∧
      m' = m) ∨
    ∃ text lines m₁, m.input.text = some text ∧ m.input.records = none ∧
      recordsWith text m.specials.rs m = .ok lines m₁ ∧
      found = some lines.toArray ∧
      m' = { m₁ with input := { m₁.input with
        records := some lines.toArray } } := by
  unfold records at h
  rw [get_bind_apply] at h
  cases cut : m.input.records with
  | some records =>
      rw [cut] at h
      cases h
      exact .inr (.inl ⟨records, rfl, rfl, rfl⟩)
  | none =>
      cases attached : m.input.text with
      | none =>
          rw [cut, attached] at h
          cases h
          exact .inl ⟨rfl, rfl, rfl, rfl⟩
      | some text =>
          rw [cut, attached] at h
          change (recordsWith text m.specials.rs >>= _) m = _ at h
          obtain ⟨lines, m₁, split, rest⟩ := bind_eq_ok.1 h
          cases rest
          exact .inr (.inr ⟨text, lines, m₁, rfl, rfl, split, rfl, rfl⟩)

theorem records_cases {found : Option (Array String)}
    (coherent : m.regexes.Coherent) (h : records m = .ok found m') :
    (found = none ∧ m.input.text = none ∧ m.input.records = none ∧ m' = m) ∨
    (∃ records, found = some records ∧ m.input.records = some records ∧
      m' = m) ∨
    ∃ text lines c, m.input.text = some text ∧ m.input.records = none ∧
      Splitter.recordsWith Regex.compile text m.specials.rs = .ok lines ∧
      c.Coherent ∧ found = some lines.toArray ∧
      m' = { m with regexes := c, input := { m.input with
        records := some lines.toArray } } := by
  obtain none | cut | ⟨text, lines, m₁, attached, uncut, split, rfl, rfl⟩ :=
    records_eq_ok h
  · exact .inl none
  · exact .inr (.inl cut)
  · obtain ⟨pure, c, kept, rfl⟩ := recordsWith_cases coherent split
    exact .inr (.inr ⟨text, lines, c, attached, uncut, pure, kept, rfl, rfl⟩)

theorem records_found {found : Option (Array String)}
    (h : records m = .ok found m') :
    m'.input.records = found := by
  obtain ⟨rfl, -, uncut, rfl⟩ | ⟨records, rfl, cut, rfl⟩ | ⟨_, lines, _, -, -,
      -, rfl, rfl⟩ :=
    records_eq_ok h
  · exact uncut
  · exact cut
  · rfl

theorem records_some {found : Option (Array String)} {text : String}
    (attached : m.input.text = some text) (h : records m = .ok found m') :
    ∃ records, found = some records := by
  obtain ⟨-, unattached, -⟩ | ⟨records, given, -⟩ | ⟨_, lines, _, -, -, -,
      given, -⟩ := records_eq_ok h
  · rw [attached] at unattached
    contradiction
  · exact ⟨records, given⟩
  · exact ⟨lines.toArray, given⟩

end Exec

end Awk
