import Awk.Proofs.Text.Pieces

/-!
# The record and its fields

The text of the record, its fields and their number are three views of one
thing.  Assigning a field or the number of fields joins the fields into a new
text, and assigning the text cuts it into new fields.  Each of these changes
what it names and keeps the rest: the other fields, and the state outside of the
record but for the patterns that are kept.  A number that selects no field is
refused before anything changes.
-/

namespace Awk

namespace Record

variable (r : Record) (ofs text : String)

theorem length_padded (fields : List String) (n : Nat) :
    (padded fields n).length = max fields.length n := by
  simp [padded]
  omega

theorem getD_padded (fields : List String) (n j : Nat) :
    (padded fields n).getD j "" = fields.getD j "" := by
  simp only [padded, List.getD_eq_getElem?_getD, List.getElem?_append,
    List.getElem?_replicate]
  split
  · rfl
  · rw [List.getElem?_eq_none (by omega)]
    split <;> rfl

theorem get_assignField_self (n : Nat) :
    (r.assignField ofs n text).get (n + 1) = text := by
  have inside : n < (padded r.fields (n + 1)).length := by
    rw [length_padded]
    omega
  simp [assignField, ofFields, get, inside]

theorem get_assignField_of_ne {n j : Nat} (other : j ≠ n) :
    (r.assignField ofs n text).get (j + 1) = r.get (j + 1) := by
  change ((padded r.fields (n + 1)).set n text).getD j "" = r.fields.getD j ""
  rw [← getD_padded r.fields (n + 1) j]
  simp [List.getElem?_set_ne other.symm]

theorem length_assignField (n : Nat) :
    (r.assignField ofs n text).fields.length = max r.fields.length (n + 1) := by
  simp [assignField, ofFields, length_padded]

theorem get_setCount (n j : Nat) : (r.setCount ofs n).get (j + 1) = if j < n
    then r.get (j + 1) else "" := by
  change (padded (r.fields.take n) n).getD j "" = _
  rw [getD_padded]
  by_cases kept : j < n
  · simp [kept, get]
  · rw [if_neg kept, List.getD_eq_getElem?_getD, List.getElem?_take,
      if_neg kept]
    rfl

theorem length_setCount (n : Nat) : (r.setCount ofs n).fields.length = n := by
  simp only [setCount, ofFields, length_padded, List.length_take]
  omega

end Record

/-! ## Numbers that select fields -/

theorem fieldNumber_eq_error (index : Number) :
    (∃ cause, fieldNumber index = .error cause) ↔
      index.truncate? = none ∨ ∃ i, index.truncate? = some i ∧
      (i < 0 ∨ maxField < i) := by
  unfold fieldNumber
  cases truncated : index.truncate? with
  | none => simp
  | some i =>
      by_cases negative : i < 0
      · simp [negative]
      · by_cases large : maxField < i
        · simp [negative, large]
        · simp [negative, large]

/-! ## Operations on the record -/

inductive FieldAct where
  | setLine (text : String)
  | setField (index : Number) (v : Value)
  | setCount (count : Number)

namespace FieldAct

def perform : FieldAct → Exec Unit
  | .setLine text => Exec.setLine text
  | .setField index v => Exec.assignField index v
  | .setCount count => Exec.setFieldCount count

def selector? : FieldAct → Option Number
  | .setLine _ => none
  | .setField index _ => some index
  | .setCount count => some count

end FieldAct

namespace Regex.Cache

def found (c : Cache) (text : String) : Except PatternError Pattern :=
  (c.lookup { text := text }).map Prod.fst

theorem Coherent.found {c : Cache} (coherent : c.Coherent) :
    c.found = compile := by
  funext text
  unfold Cache.found
  cases looked : c.lookup { text := text } with
  | ok entry => exact (coherent.lookup looked).1.symm
  | error e => exact (Exec.lookup_error looked).symm

end Regex.Cache

namespace Exec

variable {m : Machine} {index : Number} {v : Value}

theorem readField_of_ok {i : Nat} (selected : fieldNumber index = .ok i) :
    readField index m = .ok (.text (m.record.get i)) m := by
  rw [readField, selected]
  rfl

theorem assignField_of_succ {n : Nat} {text : String}
    (selected : fieldNumber index = .ok (n + 1))
    (told : m.textOf v = .ok text) :
    assignField index v m =
      .ok () { m with record :=
        m.record.assignField m.specials.ofs n text } := by
  rw [assignField, selected]
  exact bind_ok (textOf_ok told) _

theorem assignField_of_zero {text : String}
    (selected : fieldNumber index = .ok 0) (told : m.textOf v = .ok text) :
    assignField index v m = setLine text m := by
  rw [assignField, selected]
  exact bind_ok (textOf_ok told) _

theorem assignField_of_untold {i : Nat} {e : Format.TemplateError}
    (selected : fieldNumber index = .ok i) (untold : m.textOf v = .error e) :
    assignField index v m = .error (.template e) m := by
  rw [assignField, selected]
  exact bind_error (textOf_error untold) _

theorem assignField_of_error {cause : Fatal}
    (refused : fieldNumber index = .error cause) :
    assignField index v m = .error (.fatal cause) m := by
  rw [assignField, refused]
  rfl

theorem setFieldCount_of_ok {n : Nat} (selected : fieldNumber index = .ok n) :
    setFieldCount index m = .ok () { m with
      record := m.record.setCount m.specials.ofs n } := by
  rw [setFieldCount, selected]
  rfl

theorem setFieldCount_of_error {cause : Fatal}
    (refused : fieldNumber index = .error cause) :
    setFieldCount index m = .error (.fatal cause) m := by
  rw [setFieldCount, refused]
  rfl

theorem regex_apply (m : Machine) (pattern : String) :
    ∃ c, regex pattern m = .ok (m.regexes.found pattern) { m with
      regexes := c } := by
  unfold Regex.Cache.found
  cases looked : m.regexes.lookup { text := pattern } with
  | ok entry => exact ⟨entry.2, regex_ok looked⟩
  | error e => exact ⟨m.regexes, regex_error looked⟩

/-- Cutting a text changes at most the patterns that are kept, and only a
pattern can be a reason to fail. -/
theorem splitWith_cases (m : Machine) (text separator : String) :
    ∃ c, (∃ parts, Splitter.splitWith m.regexes.found text separator =
      .ok parts ∧
        splitWith text separator m = .ok parts { m with regexes := c }) ∨
      ∃ e, Splitter.splitWith m.regexes.found text separator = .error e ∧
        splitWith text separator m = .error (.pattern e) { m with
          regexes := c } := by
  unfold splitWith Splitter.splitWith
  by_cases blank : text = ""
  · rw [if_pos blank, if_pos blank]
    exact ⟨m.regexes, .inl ⟨[], rfl, rfl⟩⟩
  rw [if_neg blank, if_neg blank]
  cases simple : Splitter.ofFieldSeparator? separator with
  | some s => exact ⟨m.regexes, .inl ⟨s.split text, rfl, rfl⟩⟩
  | none =>
      obtain ⟨c, looked⟩ := regex_apply m separator
      refine ⟨c, ?_⟩
      dsimp only
      rw [bind_ok looked]
      cases Splitter.ofPattern separator (m.regexes.found separator) with
      | ok s => exact .inl ⟨s.split text, rfl, rfl⟩
      | error e => exact .inr ⟨e, rfl, rfl⟩

theorem setLine_of_ok {text : String} {fields : List String} {m' : Machine}
    (cut : splitWith text m.specials.fs { m with
      record := { m.record with line := text } } = .ok fields m') :
    setLine text m = .ok () { m' with
      record := { m'.record with fields := fields } } :=
  bind_ok cut _

theorem setLine_of_error {text : String} {e : Fault} {m' : Machine}
    (failed : splitWith text m.specials.fs { m with
      record := { m.record with line := text } } = .error e m') :
    setLine text m = .error e m' :=
  bind_error failed _

theorem setLine_cases (m : Machine) (text : String) :
    ∃ c, (∃ fields, Splitter.splitWith m.regexes.found text m.specials.fs =
      .ok fields ∧
        setLine text m = .ok () { m with
          record := ⟨text, fields⟩, regexes := c }) ∨
      ∃ e, Splitter.splitWith m.regexes.found text m.specials.fs = .error e ∧
        setLine text m = .error (.pattern e) { m with
          record := ⟨text, m.record.fields⟩, regexes := c } := by
  obtain ⟨c, ⟨fields, same, cut⟩ | ⟨e, same, failed⟩⟩ :=
    splitWith_cases { m with record := { m.record with
      line := text } } text m.specials.fs
  · exact ⟨c, .inl ⟨fields, same, setLine_of_ok cut⟩⟩
  · exact ⟨c, .inr ⟨e, same, setLine_of_error failed⟩⟩

end Exec

/-- What an operation does: it is refused, there is no text for the value, it
joins new fields, or it sets the text of the record. -/
theorem FieldAct.perform_cases (a : FieldAct) (m : Machine) :
    (∃ cause, a.perform m = .error (.fatal cause) m ∧
      ∃ index ∈ a.selector?, fieldNumber index = .error cause) ∨
      (∀ index ∈ a.selector?, ∃ i, fieldNumber index = .ok i) ∧
        ((∃ e, a.perform m = .error (.template e) m) ∨
          (∃ fields,
            a.perform m = .ok () { m with
              record := .ofFields m.specials.ofs fields }) ∨
          ∃ text, a.perform m = Exec.setLine text m) := by
  cases a with
  | setLine text => exact .inr ⟨by simp [selector?], .inr (.inr ⟨text, rfl⟩)⟩
  | setField index v =>
      cases selected : fieldNumber index with
      | error cause =>
          exact .inl ⟨cause, Exec.assignField_of_error selected, index, rfl,
            selected⟩
      | ok i =>
          refine .inr ⟨by simp [selector?, selected], ?_⟩
          cases told : m.textOf v with
          | error e => exact .inl ⟨e, Exec.assignField_of_untold selected told⟩
          | ok text =>
              refine .inr ?_
              cases i with
              | zero =>
                  exact .inr ⟨text, Exec.assignField_of_zero selected told⟩
              | succ n => exact .inl ⟨_, Exec.assignField_of_succ selected told⟩
  | setCount count =>
      cases selected : fieldNumber count with
      | error cause =>
          exact .inl ⟨cause, Exec.setFieldCount_of_error selected, count, rfl,
            selected⟩
      | ok n =>
          refine .inr ⟨by simp [selector?, selected], .inr (.inl ?_)⟩
          exact ⟨_, Exec.setFieldCount_of_ok selected⟩

/-! ## The laws -/

variable {m : Machine}

def Machine.field? (m : Machine) (index : Number) : Option Value :=
  (Exec.readField index).value? m

theorem Machine.field?_of_ok {index : Number} {i : Nat}
    (selected : fieldNumber index = .ok i) :
    m.field? index = some (.text (m.record.get i)) := by
  rw [field?, Exec.value?, Exec.readField_of_ok selected]

/-- Only the record and the patterns that are kept change. -/
theorem FieldAct.final_perform (a : FieldAct) (m : Machine) :
    ∃ r c, a.perform.final m = { m with record := r, regexes := c } := by
  obtain ⟨cause, refused, -⟩ | ⟨-, ⟨e, untold⟩ | ⟨fields, done⟩ | ⟨text,
      set⟩⟩ :=
    a.perform_cases m
  · exact ⟨m.record, m.regexes, Exec.final_error refused⟩
  · exact ⟨m.record, m.regexes, Exec.final_error untold⟩
  · exact ⟨_, m.regexes, Exec.final_ok done⟩
  · obtain ⟨c, ⟨fields, -, done⟩ | ⟨e, -, failed⟩⟩ := Exec.setLine_cases m text
    · exact ⟨_, c, Exec.final_ok (set.trans done)⟩
    · exact ⟨_, c, Exec.final_error (set.trans failed)⟩

/-- A fatal error comes from the number alone, and before anything has
changed. -/
theorem FieldAct.perform_eq_fatal (a : FieldAct) {cause : Fatal} {m' : Machine}
    (fatal : a.perform m = .error (.fatal cause) m') :
    m' = m ∧ ∃ index ∈ a.selector?, fieldNumber index = .error cause := by
  obtain ⟨cause', refused, selects⟩ | ⟨-,
      ⟨e, untold⟩ | ⟨fields, done⟩ | ⟨text, set⟩⟩ :=
    a.perform_cases m
  · obtain ⟨⟨⟨⟩⟩, rfl⟩ := EStateM.Result.error.inj (fatal.symm.trans refused)
    exact ⟨rfl, selects⟩
  · rw [untold] at fatal
    cases fatal
  · rw [done] at fatal
    contradiction
  · obtain ⟨c, ⟨fields, -, done⟩ | ⟨e, -, failed⟩⟩ := Exec.setLine_cases m text
    · rw [set, done] at fatal
      contradiction
    · rw [set, failed] at fatal
      cases fatal

theorem FieldAct.perform_refused (a : FieldAct) {index : Number} {cause : Fatal}
    (selects : index ∈ a.selector?)
    (refused : fieldNumber index = .error cause) :
    a.perform m = .error (.fatal cause) m := by
  cases a with
  | setLine text => contradiction
  | setField index' v =>
      cases selects
      exact Exec.assignField_of_error refused
  | setCount count =>
      cases selects
      exact Exec.setFieldCount_of_error refused

/-- A field that is assigned holds the text of the value, the other fields keep
theirs, and there are as many as before or as it takes; a number of fields that
is set is the number, and the fields up to it keep their texts; in both cases
the record is the fields joined.  When the record is assigned, the fields are
what it is cut into. Nothing but the record and the patterns that are kept
changes, and nothing at all if the number selects no field or the value has no
text. -/
theorem field_store_laws (m : Machine) :
    (∀ index i v text, fieldNumber index = .ok i → 1 ≤ i →
      m.textOf v = .ok text →
      ∃ m', Exec.assignField index v m = .ok () m' ∧
        m'.field? index = some (.text text) ∧
        (∀ other j, fieldNumber other = .ok j → 1 ≤ j → j ≠ i →
          m'.field? other = m.field? other) ∧
        m'.record.fields.length = max m.record.fields.length i ∧
        m'.record.line = m.specials.ofs.intercalate m'.record.fields) ∧
    (∀ count n, fieldNumber count = .ok n →
      ∃ m', Exec.setFieldCount count m = .ok () m' ∧
        (∀ other j, fieldNumber other = .ok j → 1 ≤ j →
          m'.field? other = if j ≤ n then m.field? other else some (.text "")) ∧
        m'.record.fields.length = n ∧
        m'.record.line = m.specials.ofs.intercalate m'.record.fields) ∧
    (∀ index v text, fieldNumber index = .ok 0 → m.textOf v = .ok text →
      m.regexes.Coherent →
      (∀ m', Exec.assignField index v m = .ok () m' →
        m'.field? index = some (.text text) ∧
          Splitter.splitWith Regex.compile text m.specials.fs =
            .ok m'.record.fields) ∧
      ∀ fields, Splitter.splitWith Regex.compile text m.specials.fs =
        .ok fields →
        ∃ m', Exec.assignField index v m = .ok () m') ∧
    (∀ index i v e, fieldNumber index = .ok i → m.textOf v = .error e →
      Exec.assignField index v m = .error (.template e) m) ∧
    ∀ a : FieldAct,
      (∃ r c, a.perform.final m = { m with record := r, regexes := c }) ∧
      (∀ cause m', a.perform m = .error (.fatal cause) m' → m' = m) ∧
      ((∃ cause m', a.perform m = .error (.fatal cause) m') ↔
        ∃ index ∈ a.selector?,
          index.truncate? = none ∨
            ∃ i, index.truncate? = some i ∧ (i < 0 ∨ maxField < i)) := by
  refine ⟨?_, ?_, ?_, fun _ _ _ _ => Exec.assignField_of_untold, ?_⟩
  · intro index i v text selected positive told
    obtain ⟨n, rfl⟩ :=
      Nat.exists_eq_succ_of_ne_zero (Nat.one_le_iff_ne_zero.1 positive)
    refine ⟨_, Exec.assignField_of_succ selected told, ?_, ?_, ?_, rfl⟩
    · rw [Machine.field?_of_ok selected, Record.get_assignField_self]
    · intro other j selects positive different
      obtain ⟨k, rfl⟩ :=
        Nat.exists_eq_succ_of_ne_zero (Nat.one_le_iff_ne_zero.1 positive)
      rw [Machine.field?_of_ok selects, Machine.field?_of_ok selects]
      rw [Record.get_assignField_of_ne _ _ _ (by omega)]
    · exact m.record.length_assignField _ _ n
  · intro count n selected
    refine ⟨_, Exec.setFieldCount_of_ok selected, ?_,
      m.record.length_setCount _ n, rfl⟩
    intro other j selects positive
    obtain ⟨k, rfl⟩ :=
      Nat.exists_eq_succ_of_ne_zero (Nat.one_le_iff_ne_zero.1 positive)
    rw [Machine.field?_of_ok selects, Machine.field?_of_ok selects,
      Record.get_setCount]
    simp only [Nat.succ_le_iff]
    split <;> rfl
  · intro index v text selected told coherent
    have set := Exec.assignField_of_zero selected told
    rw [← coherent.found]
    obtain ⟨c, ⟨fields, cut, done⟩ | ⟨e, uncut, failed⟩⟩ :=
      Exec.setLine_cases m text
    · refine ⟨?_, fun _ _ => ⟨_, set.trans done⟩⟩
      intro m' assigned
      rw [set, done] at assigned
      cases assigned
      exact ⟨Machine.field?_of_ok selected, cut⟩
    · constructor
      · intro m' assigned
        rw [set, failed] at assigned
        contradiction
      · intro fields cut
        rw [uncut] at cut
        contradiction
  · intro a
    refine ⟨a.final_perform m,
      fun cause m' fatal => (a.perform_eq_fatal fatal).1, ?_⟩
    simp only [← fieldNumber_eq_error]
    constructor
    · rintro ⟨cause, m', fatal⟩
      obtain ⟨-, index, selects, refused⟩ := a.perform_eq_fatal fatal
      exact ⟨index, selects, cause, refused⟩
    · rintro ⟨index, selects, cause, refused⟩
      exact ⟨cause, m, a.perform_refused selects refused⟩

/-- A record of two fields that gets a fifth one. -/
theorem fifth_field_assigned :
    let m : Machine := { record := ⟨"a b", ["a", "b"]⟩ }
    ∃ m', Exec.assignField (.ofNat 5) (.number (.ofNat 9)) m = .ok () m' ∧
    m'.field? (.ofNat 5) = some (.text "9") ∧
    m'.field? (.ofNat 2) = some (.text "b") ∧
    m'.field? (.ofNat 4) = some (.text "") ∧ m'.record.fields.length = 5 := by
  intro m
  have told : m.textOf (.number (.ofNat 9)) = .ok "9" := by decide +kernel
  obtain ⟨m', assigned, here, others, count, -⟩ :=
    (field_store_laws m).1 (.ofNat 5) 5 (.number (.ofNat 9)) "9" rfl
      (by decide) told
  refine ⟨m', assigned, here, ?_, ?_, count⟩
  · exact (others (.ofNat 2) 2 rfl (by decide) (by decide)).trans
      (by decide +kernel)
  · exact (others (.ofNat 4) 4 rfl (by decide) (by decide)).trans
      (by decide +kernel)

end Awk
