import Awk.Host
import Awk.Proofs.Fields.Store

/-!
# One character as both separators of fields

If fields are joined with the character at which records are cut, then the
record is its fields joined at all times: what is cut can be joined again, and
what is joined needs no cutting.  Values that hold the character do no harm,
since a field is not cut when it is assigned.
-/

namespace Awk

namespace FieldAct

def after (m : Machine) (acts : List FieldAct) : Machine :=
  acts.foldl (fun m a => a.perform.final m) m

end FieldAct

structure Joined (c : Char) (m : Machine) : Prop where
  fs : m.specials.fs = String.singleton c
  ofs : m.specials.ofs = String.singleton c
  coherent : m.regexes.Coherent
  line : m.record.line = (String.singleton c).intercalate m.record.fields

variable {c : Char} {m : Machine}

theorem setLine_singleton (coherent : m.regexes.Coherent) (space : c ≠ ' ')
    (fs : m.specials.fs = String.singleton c) (text : String) :
    Exec.setLine text m = .ok () { m with
      record := ⟨text, (Splitter.literal [c]).split text⟩ } := by
  let written : Machine := { m with record := { m.record with line := text } }
  have cut : Exec.splitWith text m.specials.fs written =
      .ok ((Splitter.literal [c]).split text) written := by
    rw [fs]
    exact Exec.splitWith_singleton (m := written) coherent space text
  exact Exec.setLine_of_ok cut

theorem Joined.perform (h : Joined c m) (space : c ≠ ' ') (a : FieldAct) :
    Joined c (a.perform.final m) := by
  obtain ⟨cause, refused, -⟩ | ⟨-, ⟨e, untold⟩ | ⟨fields, done⟩ | ⟨text,
      set⟩⟩ :=
    a.perform_cases m
  · rw [Exec.final_error refused]
    exact h
  · rw [Exec.final_error untold]
    exact h
  · rw [Exec.final_ok done]
    exact ⟨h.fs, h.ofs, h.coherent, by simp [Record.ofFields, h.ofs]⟩
  · rw [Exec.final_ok
      (set.trans (setLine_singleton h.coherent space h.fs text))]
    exact ⟨h.fs, h.ofs, h.coherent, (Text.intercalate_split c text).symm⟩

theorem Joined.after (h : Joined c m) (space : c ≠ ' ') (acts : List FieldAct) :
    Joined c (FieldAct.after m acts) := by
  induction acts generalizing m with
  | nil => exact h
  | cons a rest ih => exact ih (h.perform space a)

/-! ## Writing back what was read -/

theorem Record.assignField_get (r : Record) {ofs : String} {n : Nat}
    (inside : n < r.fields.length) :
    r.assignField ofs n (r.get (n + 1)) = .ofFields ofs r.fields := by
  have unpadded : padded r.fields (n + 1) = r.fields := by
    rw [padded, Nat.sub_eq_zero_of_le inside, List.replicate_zero,
      List.append_nil]
  have same : r.fields.set n (r.fields.getD n "") = r.fields := by
    simp [inside]
  simp only [assignField, get, unpadded, same]

theorem Joined.write_back (h : Joined c m) {index : Number} {n : Nat}
    (selected : fieldNumber index = .ok (n + 1))
    (inside : n < m.record.fields.length) :
    Exec.assignField index (.text (m.record.get (n + 1))) m = .ok () m := by
  have same : Record.ofFields m.specials.ofs m.record.fields = m.record := by
    rw [Record.ofFields, h.ofs, ← h.line]
  rw [Exec.assignField_of_succ selected rfl, Record.assignField_get _ inside,
    same]

/-- Where one character other than the space is both separators of fields, the
record is its fields joined with it after any operations on the record, those
that fail included, and reading a field and writing it back changes nothing. -/
theorem record_eq_fields_joined {c : Char} (space : c ≠ ' ') (options : Options)
    (host : Host) (specials : Specials) (acts : List FieldAct) :
    let start : Machine :=
      { startMachine options host with
        specials := { specials with fs := String.singleton c,
                                    ofs := String.singleton c } }
    let m := FieldAct.after start acts
    m.record.line = (String.singleton c).intercalate m.record.fields ∧
    ∀ index i, fieldNumber index = .ok i → i ≤ m.record.fields.length →
    ∃ m', (do Exec.assignField index (← Exec.readField index) : Exec Unit) m =
      .ok () m' ∧ m'.record.line = m.record.line ∧ (1 ≤ i → m' = m) := by
  intro start m
  have first : Joined c start := ⟨rfl, rfl, Regex.Cache.coherent_empty, rfl⟩
  have h : Joined c m := first.after space acts
  refine ⟨h.line, ?_⟩
  intro index i selected present
  rw [Exec.bind_ok (Exec.readField_of_ok selected)]
  cases i with
  | zero =>
      rw [Exec.assignField_of_zero selected rfl]
      exact ⟨_, setLine_singleton h.coherent space h.fs _, rfl, by omega⟩
  | succ n => exact ⟨m, h.write_back selected present, rfl, fun _ => rfl⟩

/-- The backslash as both separators, with a value that holds it, a field beyond
the end and a number that is refused. -/
theorem record_joined_with_backslash :
    let start : Machine :=
      { startMachine {} {} with
        specials := { ({} : Specials) with
          fs := String.singleton '\\'
          ofs := String.singleton '\\' } }
    let m := FieldAct.after start [.setLine "a\\b",
      .setField (.ofNat 4) (.text "x\\y"), .setField (-.one) (.text "z"),
      .setCount (.ofNat 5)]
    m.record.fields = ["a", "b", "", "x\\y", ""] ∧
    m.record.line = (String.singleton '\\').intercalate ["a", "b", "", "x\\y",
      ""] ∧ ∃ m',
    (do Exec.assignField (.ofNat 4) (← Exec.readField (.ofNat 4)) : Exec Unit)
      m = .ok () m' ∧ m' = m := by
  intro start m
  have cut : Exec.setLine "a\\b" start = .ok () { start with
    record := ⟨"a\\b", (Splitter.literal ['\\']).split "a\\b"⟩ } :=
    setLine_singleton Regex.Cache.coherent_empty (by decide) rfl "a\\b"
  have fields : m.record.fields = ["a", "b", "", "x\\y", ""] := by
    change (FieldAct.after ((Exec.setLine "a\\b").final start)
      _).record.fields = _
    rw [Exec.final_ok cut]
    decide +kernel
  obtain ⟨line, back⟩ :=
    record_eq_fields_joined (by decide : '\\' ≠ ' ') {} {} {} [.setLine "a\\b",
      .setField (.ofNat 4) (.text "x\\y"), .setField (-.one) (.text "z"),
      .setCount (.ofNat 5)]
  have present : 4 ≤ m.record.fields.length := by
    rw [fields]
    decide
  obtain ⟨m', written, -, same⟩ := back (.ofNat 4) 4 rfl present
  exact ⟨fields, line.trans (congrArg _ fields), m', written, same (by decide)⟩

end Awk
