import Awk.Proofs.Records.Cut

/-!
# Keeping patterns

Patterns are compiled when they are first used and kept by their texts, and a
full cache is emptied before another one is kept.  Nothing of this can be seen:
after any sequence of uses, by texts that are patterns and by texts that are
not, each further use is answered as if its text were compiled anew.  What fails
changes nothing, and no more than `maxCached` patterns are kept at any time.
-/

namespace Awk

namespace Regex.Cache

structure Sound (c : Cache) : Prop where
  coherent : c.Coherent
  bounded : c.size ≤ maxCached

theorem sound_empty : Sound {} := ⟨coherent_empty, by simp [Cache.size]⟩

variable {c c' : Cache} {k : Key} {p : Pattern}

theorem size_keep_le (c : Cache) (k : Key) (p : Pattern) :
    (c.keep k p).size ≤ maxCached := by
  have added : ∀ patterns : Std.HashMap Key Pattern,
      (patterns.insert k p).size ≤ patterns.size + 1 :=
    fun _ => Std.HashMap.size_insert_le
  unfold keep Cache.size
  split
  · exact Nat.le_trans (added {}) (by simp [maxCached])
  · rename_i room
    exact Nat.le_trans (added c.patterns) (by omega)

theorem Sound.lookup (sound : c.Sound) (looked : c.lookup k = .ok (p, c')) :
    c'.Sound := by
  refine ⟨(sound.coherent.lookup looked).2, ?_⟩
  unfold Cache.lookup at looked
  split at looked
  · obtain ⟨-, rfl⟩ : _ ∧ c = c' := by simpa using looked
    exact sound.bounded
  · split at looked
    · obtain ⟨-, rfl⟩ : _ ∧ c.keep k _ = c' := by simpa using looked
      exact size_keep_le c k _
    · contradiction

/-- What is looked up is what compiling afresh gives. -/
theorem Coherent.map_lookup (coherent : c.Coherent) (k : Key) :
    (c.lookup k).map Prod.fst = k.compile := by
  cases looked : c.lookup k with
  | ok entry => exact (coherent.lookup looked).1.symm
  | error e => exact (compile_of_lookup_error looked).symm

theorem Coherent.lookup_error (coherent : c.Coherent) {e : PatternError}
    (refused : k.compile = .error e) : c.lookup k = .error e := by
  have fresh := coherent.map_lookup k
  rw [refused] at fresh
  cases looked : c.lookup k with
  | ok entry =>
      rw [looked] at fresh
      contradiction
  | error e' =>
      rw [looked] at fresh
      simpa [Except.map] using fresh

end Regex.Cache

/-! ## One use after the other -/

namespace Exec

def outcome {α : Type} (x : Exec α) (m : Machine) : Except Fault α :=
  match x m with
  | .ok a _ => .ok a
  | .error e _ => .error e

variable {m : Machine} {pattern : String}

theorem regex_fresh (sound : m.regexes.Sound) (pattern : String) :
    ∃ c, c.Sound ∧ regex pattern m = .ok (Regex.compile pattern) { m with
      regexes := c } := by
  cases looked : m.regexes.lookup { text := pattern } with
  | ok entry =>
      have compiled : Regex.compile pattern = .ok entry.1 :=
        (sound.coherent.lookup looked).1
      rw [compiled]
      exact ⟨entry.2, sound.lookup looked, regex_ok looked⟩
  | error e =>
      rw [lookup_error looked]
      exact ⟨m.regexes, sound, regex_error looked⟩

theorem regex_refused (sound : m.regexes.Sound) {e : Regex.PatternError}
    (refused : Regex.compile pattern = .error e) :
    regex pattern m = .ok (.error e) m :=
  regex_error (sound.coherent.lookup_error refused)

theorem occurs_after_regex {found : Except Regex.PatternError Regex.Pattern}
    {m' : Machine} (fetched : regex pattern m = .ok found m') (text : String) :
    (occurs pattern text).outcome m =
      (Regex.occurs found text).mapError Fault.pattern ∧
      (occurs pattern text).final m = m' := by
  unfold outcome final occurs
  rw [bind_ok fetched]
  cases Regex.occurs found text with
  | ok b => exact ⟨rfl, rfl⟩
  | error e => exact ⟨rfl, rfl⟩

end Exec

inductive PatternUse where
  | fetch (pattern : String)
  | find (pattern text : String)

namespace PatternUse

def after (m : Machine) : PatternUse → Machine
  | .fetch pattern => (Exec.regex pattern).final m
  | .find pattern text => (Exec.occurs pattern text).final m

/-- One use keeps what is kept sound, and touches nothing else. -/
theorem after_sound {m : Machine} (sound : m.regexes.Sound) (use : PatternUse) :
    ∃ c, c.Sound ∧ use.after m = { m with regexes := c } := by
  cases use with
  | fetch pattern =>
      obtain ⟨c, kept, fetched⟩ := Exec.regex_fresh sound pattern
      exact ⟨c, kept, Exec.final_ok fetched⟩
  | find pattern text =>
      obtain ⟨c, kept, fetched⟩ := Exec.regex_fresh sound pattern
      exact ⟨c, kept, (Exec.occurs_after_regex fetched text).2⟩

theorem afterAll_sound {m : Machine} (sound : m.regexes.Sound)
    (uses : List PatternUse) :
    ∃ c, c.Sound ∧ uses.foldl after m = { m with regexes := c } := by
  induction uses generalizing m with
  | nil => exact ⟨m.regexes, sound, rfl⟩
  | cons use uses ih =>
      obtain ⟨c, kept, next⟩ := after_sound sound use
      obtain ⟨c', kept', last⟩ := ih (m := { m with regexes := c }) kept
      exact ⟨c', kept', by rw [List.foldl_cons, next, last]⟩

end PatternUse

/--
After any uses of patterns, each further use is answered as if its text were
compiled anew, with whatever flags, what does not compile changes nothing, and
no more than 512 patterns are kept.
-/
theorem kept_patterns_invisible {start : Machine} (empty : start.regexes = {})
    (uses : List PatternUse) :
    let m := uses.foldl PatternUse.after start
    m.regexes.size ≤ 512 ∧
    (∀ k, (m.regexes.lookup k).map Prod.fst = k.compile) ∧
    (∀ pattern, (Exec.regex pattern).outcome m = .ok (Regex.compile pattern)) ∧
    (∀ pattern text, (Exec.occurs pattern text).outcome m =
      (Regex.occurs (Regex.compile pattern) text).mapError Fault.pattern) ∧
    (∀ pattern text e, Regex.compile pattern = .error e →
      (Exec.regex pattern).final m = m ∧
      (Exec.occurs pattern text).final m = m) ∧
    ∃ c, m = { start with regexes := c } := by
  intro m
  have first : start.regexes.Sound := empty ▸ Regex.Cache.sound_empty
  obtain ⟨c, sound, reached⟩ := PatternUse.afterAll_sound first uses
  have sound : m.regexes.Sound := by
    rw [show m = _ from reached]
    exact sound
  refine ⟨sound.bounded, sound.coherent.map_lookup, ?_, ?_, ?_, c, reached⟩
  · intro pattern
    obtain ⟨c, -, fetched⟩ := Exec.regex_fresh sound pattern
    simp only [Exec.outcome, fetched]
  · intro pattern text
    obtain ⟨c, -, fetched⟩ := Exec.regex_fresh sound pattern
    exact (Exec.occurs_after_regex fetched text).1
  · intro pattern text e refused
    have fetched := Exec.regex_refused sound refused
    exact ⟨Exec.final_ok fetched, (Exec.occurs_after_regex fetched text).2⟩

/-- Uses of a text that is no pattern, before and after one that is. -/
theorem kept_patterns_invisible_behind_failures :
    let start := Machine.start {} none none []
    let m := [PatternUse.fetch "(", .find "a+" "baa",
      .find "(" "(("].foldl PatternUse.after start
    start.regexes = {} ∧ m.regexes.size ≤ 512 ∧
    (∀ k, (m.regexes.lookup k).map Prod.fst = k.compile) ∧
    (∀ pattern, (Exec.regex pattern).outcome m = .ok (Regex.compile pattern)) ∧
    (∀ pattern text, (Exec.occurs pattern text).outcome m =
      (Regex.occurs (Regex.compile pattern) text).mapError Fault.pattern) ∧
    (∀ pattern text e, Regex.compile pattern = .error e →
      (Exec.regex pattern).final m = m ∧
      (Exec.occurs pattern text).final m = m) ∧
    ∃ c, m = { start with regexes := c } :=
  ⟨rfl, kept_patterns_invisible rfl _⟩

end Awk
