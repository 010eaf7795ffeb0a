import Awk.Proofs.Change
import Awk.Proofs.Format.Composition

/-!
# Operations on the state are primitive

One lemma for each operation that expressions use, in the order of the modules
that define them.  Most operations are silent, and assignments to names other
than `NR` and `FNR` are quiet.
-/

namespace Awk

theorem NameKind.ofName_eq_nr {name : String}
    (h : NameKind.ofName name = .number .nr) : name = "NR" := by
  unfold NameKind.ofName at h
  split at h <;> simp_all

theorem NameKind.ofName_eq_fnr {name : String}
    (h : NameKind.ofName name = .number .fnr) : name = "FNR" := by
  unfold NameKind.ofName at h
  split at h <;> simp_all

structure Specials.Untold (s t : Specials) : Prop where
  nr : t.nr = s.nr
  fnr : t.fnr = s.fnr
  filename : t.filename = s.filename

theorem Regex.occurs_eq_error {found : Except PatternError Pattern}
    {text : String} {e : PatternError} :
    Regex.occurs found text = .error e ↔ found = .error e ∧
    e.isPassedOver = false := by
  cases found with
  | ok p => simp [Regex.occurs]
  | error e' =>
      change (if e'.isPassedOver = true then _ else _) = _ ↔ _
      constructor
      · intro failed
        split at failed
        · contradiction
        · next apparent =>
            cases failed
            exact ⟨rfl, Bool.not_eq_true _ ▸ apparent⟩
      · rintro ⟨⟨⟩, apparent⟩
        simp [apparent]

theorem Regex.Cache.compile_of_lookup_error {c : Cache} {k : Key}
    {e : PatternError} (h : c.lookup k = .error e) : k.compile = .error e := by
  unfold Cache.lookup at h
  split at h
  · contradiction
  · split at h
    · contradiction
    · next compiled =>
        cases h
        exact compiled

namespace Exec

variable {α : Type} {C : Machine → Machine → Prop}

/-! ## Looking at the state -/

theorem convfmt_primitive : Primitive C convfmt := .view fun _ _ => rfl

theorem toText_raised {v : Value} {template : String} {memory : Nat}
    {e : Format.TemplateError} (h : v.toText template memory = .error e) :
    Fault.Raised memory (.template e) := by
  cases v with
  | number x => exact .template h
  | text s => contradiction

theorem holds_raised {op : Comparison} {a b : Value} {template : String}
    {memory : Nat} {e : Format.TemplateError}
    (h : op.holds a b template memory = .error e) :
    Fault.Raised memory (.template e) := by
  unfold Comparison.holds at h
  split at h
  · contradiction
  · rcases Format.of_bind_eq_error h with left | ⟨s, -, h⟩
    · exact toText_raised left
    · exact toText_raised (Format.of_return_eq_error h)

theorem ofTemplate_primitive {m : Machine} {x : Except Format.TemplateError α}
    (raised : ∀ e, x = .error e →
      Fault.Raised m.platform.memory (.template e)) :
    PrimitiveAt C (ofTemplate x) m := by
  cases x with
  | ok a => exact .pure a
  | error e => exact .throw (raised e rfl)

theorem textThrough_primitive (template : String) (v : Value) :
    Primitive C (textThrough template v) :=
  .get_bind (fun _ _ => rfl) fun _ =>
    ofTemplate_primitive fun _ => toText_raised

theorem textOf_primitive (v : Value) : Primitive C (textOf v) :=
  convfmt_primitive.bind fun template => textThrough_primitive template v

theorem compare_primitive (op : Comparison) (a b : Value) :
    Primitive C (compare op a b) := by
  refine convfmt_primitive.bind fun template => ?_
  exact .get_bind (fun _ _ => rfl) fun _ =>
    ofTemplate_primitive fun _ => holds_raised

theorem formatted_primitive (format : Value) (values : List Value) :
    Primitive C (formatted format values) := by
  refine (textOf_primitive format).bind fun text => ?_
  refine .get_bind (fun _ _ => rfl) fun m => ?_
  refine .view_bind (fun _ => rfl) ?_
  cases filled : Format.printf text values m.specials.convfmt m.platform.memory
    with
  | ok text => exact .pure text
  | error e =>
      cases e with
      | size e => exact .throw (.size filled)
      | template e =>
          obtain ⟨_, ⟨⟩, -⟩ | ⟨v, -, _, ⟨⟩, lacking⟩ :=
            Format.printf_refused filled
          exact .throw (toText_raised lacking)

theorem orFatal_primitive (r : Except Fatal α) : Primitive C (orFatal r) := by
  cases r with
  | ok a => exact .pure a
  | error cause => exact .fatal cause

theorem readField_primitive (index : Number) :
    Primitive C (readField index) := by
  refine (orFatal_primitive _).bind fun i => ?_
  exact .view fun _ _ => rfl

theorem fieldCount_primitive : Primitive C fieldCount := .view fun _ _ => rfl

theorem readVariable_primitive (name : String) :
    Primitive C (readVariable name) := by
  unfold readVariable
  cases NameKind.ofName name with
  | fieldCount => exact fieldCount_primitive.bind fun n => .pure _
  | number s => exact .view fun _ _ => rfl
  | text s => exact .view fun _ _ => rfl
  | ordinary =>
      refine .get_bind (fun _ _ => rfl) fun m => ?_
      dsimp only
      split
      · exact .fatal (.arrayAsScalar name)
      · exact .pure _

theorem arrayAt_primitive (id : ArrayId) : Primitive C (arrayAt id) :=
  .view fun _ _ => rfl

theorem hasElement_primitive (name key : String) :
    Primitive C (hasElement name key) := by
  refine .get_bind (fun _ _ => rfl) fun m => ?_
  exact (orFatal_primitive _).bind (fun t => .pure _) m

theorem cursorAt_primitive (path : String) : Primitive C (cursorAt path) :=
  .view fun _ _ => rfl

def FailsLike (text : String)
    (found : Except Regex.PatternError Regex.Pattern) : Prop :=
  ∀ e, found = .error e → Regex.compile text = .error e

theorem lookup_error {c : Regex.Cache} {text : String} {e : Regex.PatternError}
    (h : c.lookup { text := text } = .error e) :
    Regex.compile text = .error e :=
  Regex.Cache.compile_of_lookup_error h

theorem regex_ok {pattern : String} {m : Machine} {p : Regex.Pattern}
    {c : Regex.Cache}
    (looked : m.regexes.lookup { text := pattern } = .ok (p, c)) :
    regex pattern m = .ok (.ok p) { m with regexes := c } := by
  unfold regex
  rw [get_bind_apply, looked]
  rfl

theorem regex_error {pattern : String} {m : Machine} {e : Regex.PatternError}
    (looked : m.regexes.lookup { text := pattern } = .error e) :
    regex pattern m = .ok (.error e) m := by
  unfold regex
  rw [get_bind_apply, looked]
  rfl

theorem regex_failsLike {pattern : String} {m m' : Machine}
    {found : Except Regex.PatternError Regex.Pattern}
    (h : regex pattern m = .ok found m') :
    FailsLike pattern found := by
  cases looked : m.regexes.lookup { text := pattern } with
  | ok entry =>
      rw [regex_ok looked] at h
      cases h
      intro e failed
      contradiction
  | error e =>
      rw [regex_error looked] at h
      cases h
      intro e' failed
      cases failed
      exact lookup_error looked

theorem ofPattern_raised {separator : String}
    {found : Except Regex.PatternError Regex.Pattern} {e : Regex.PatternError}
    (fails : FailsLike separator found)
    (h : Splitter.ofPattern separator found = .error e) (memory : Nat) :
    Fault.Raised memory (.pattern e) := by
  unfold Splitter.ofPattern at h
  split at h
  · contradiction
  · contradiction
  · next unanswered =>
      cases h
      exact .pattern (fails e rfl) unanswered

/-! ## Traces and patterns -/

section Changing

variable [Admits C]

theorem note_primitive (parts : List String) : Primitive C (note parts) := by
  intro m
  refine ⟨?_, ?_, ?_, fun _ _ h => nomatch h⟩
  · change Relation.ReflTransGen C m (ite (m.trace.enabled = true) _ m)
    split
    · exact .single (Admits.of_change (.trace _) rfl rfl)
    · exact .refl
  · intro s
    change EStateM.Result.ok () (ite (m.trace.enabled = true) _ _) =
      EStateM.Result.ok () (Machine.amid (ite (m.trace.enabled = true) _ m) s)
    split <;> rfl
  · change Machine.platform (ite (m.trace.enabled = true) _ m) = m.platform
    split <;> rfl

theorem regex_primitive (pattern : String) : Primitive C (regex pattern) := by
  refine .get_bind (fun _ _ => rfl) fun m => ?_
  cases looked : m.regexes.lookup { text := pattern } with
  | error e => exact .pure _
  | ok found =>
      refine ⟨.single (Admits.of_change (.regexes found.2 looked) rfl rfl),
        fun _ => rfl, rfl, ?_⟩
      exact fun _ _ h => nomatch h

theorem regex_bind_primitive {pattern : String}
    {f : Except Regex.PatternError Regex.Pattern → Exec α}
    (hf : ∀ found, FailsLike pattern found → Primitive C (f found)) :
    Primitive C (regex pattern >>= f) :=
  (regex_primitive pattern).bind_of regex_failsLike hf

theorem regex?_primitive (pattern : String) : Primitive C (regex? pattern) := by
  refine regex_bind_primitive fun found fails => ?_
  cases found with
  | ok p => exact .pure (some p)
  | error e =>
      have compiled : Regex.compile pattern = .error e := fails e rfl
      cases e with
      | malformed => exact .pure none
      | repeatTooLarge | tooManyDigits count | flagConflict =>
          exact .throw fun _ => .pattern compiled nofun

theorem occurs_primitive (pattern text : String) :
    Primitive C (occurs pattern text) := by
  refine regex_bind_primitive fun found fails => ?_
  cases result : Regex.occurs found text with
  | ok b => exact .pure b
  | error e =>
      obtain ⟨rfl, apparent⟩ := Regex.occurs_eq_error.1 result
      refine .throw fun _ => .pattern (fails e rfl) ?_
      rintro rfl
      contradiction

/-! ## The record -/

theorem splitWith_primitive (text separator : String) :
    Primitive C (splitWith text separator) := by
  unfold splitWith
  split
  · exact .pure []
  · cases Splitter.ofFieldSeparator? separator with
    | some s => exact .pure (s.split text)
    | none =>
        refine regex_bind_primitive fun found fails => ?_
        cases result : Splitter.ofPattern separator found with
        | ok s => exact .pure (s.split text)
        | error e => exact .throw (ofPattern_raised fails result)

theorem setRecord_primitive (f : Record → Record) :
    Primitive C (modify fun m => { m with record := f m.record }) :=
  .modify (fun m => Admits.of_change (.record (f m.record)) rfl rfl)
    (fun _ => rfl) fun _ _ => rfl

theorem setLine_primitive (text : String) : Primitive C (setLine text) := by
  refine (setRecord_primitive fun r => { r with line := text }).bind fun _ => ?_
  refine .get_bind (fun _ _ => rfl) fun m => ?_
  refine (splitWith_primitive text m.specials.fs).bind (fun fields => ?_) m
  exact setRecord_primitive fun r => { r with fields := fields }

theorem assignField_primitive (index : Number) (v : Value) :
    Primitive C (assignField index v) := by
  refine (orFatal_primitive _).bind fun i => ?_
  refine (textOf_primitive v).bind fun text => ?_
  cases i with
  | zero => exact setLine_primitive text
  | succ n =>
      exact .modify (fun _ => Admits.of_change (.record _) rfl rfl)
        (fun _ => rfl) fun _ _ => rfl

theorem setFieldCount_primitive (count : Number) :
    Primitive C (setFieldCount count) := by
  refine (orFatal_primitive _).bind fun n => ?_
  exact .modify (fun _ => Admits.of_change (.record _) rfl rfl)
    (fun _ => rfl) fun _ _ => rfl

/-! ## Names -/

theorem setSpecials_primitive (f : Specials → Specials) :
    Primitive Change (modify fun m => { m with specials := f m.specials }) :=
  .modify (fun m => .specials (f m.specials)) (fun _ => rfl) fun _ _ => rfl

theorem setSpecials_silent (f : Specials → Specials)
    (untold : ∀ s : Specials, s.Untold (f s)) :
    Primitive C (modify fun m => { m with specials := f m.specials }) := by
  refine .modify (fun m => ?_) (fun _ => rfl) fun _ _ => rfl
  have same := untold m.specials
  exact Admits.silent ⟨⟨.specials (f m.specials), rfl, same.nr, same.fnr⟩,
    same.filename⟩

/-- Only the assignment of a special variable may be something else than
silent. -/
theorem assignVariable_of (name : String) (v : Value)
    (number : ∀ s, NameKind.ofName name = .number s →
      Primitive C (modify fun m => { m with
        specials := m.specials.setNumber v.toNumber s }))
    (text : ∀ s, NameKind.ofName name = .text s →
      ∀ t, Primitive C (modify fun m => { m with
        specials := m.specials.setText t s })) :
    Primitive C (assignVariable name v) := by
  unfold assignVariable
  cases kind : NameKind.ofName name with
  | fieldCount => exact setFieldCount_primitive v.toNumber
  | number s => exact number s kind
  | text s => exact (textOf_primitive v).bind fun t => text s kind t
  | ordinary =>
      refine .get_bind (fun _ _ => rfl) fun m => ?_
      split
      · exact .fatal (.arrayAsScalar name)
      · rename_i free
        have change := Change.scalar name v kind (Bool.eq_false_iff.2 free)
        exact .modify (Admits.of_change change rfl rfl) rfl fun _ => rfl

theorem assignVariable_primitive (name : String) (v : Value) :
    Primitive Change (assignVariable name v) :=
  assignVariable_of name v (fun s _ => setSpecials_primitive fun specials =>
    specials.setNumber v.toNumber s) fun s _ t =>
      setSpecials_primitive fun specials => specials.setText t s

theorem setSpecials_quiet (f : Specials → Specials) (nr : ∀ s, (f s).nr = s.nr)
    (fnr : ∀ s, (f s).fnr = s.fnr) :
    Primitive Quiet (modify fun m => { m with specials := f m.specials }) :=
  .modify (fun m => ⟨.specials (f m.specials), rfl, nr m.specials,
    fnr m.specials⟩) (fun _ => rfl) fun _ _ => rfl

theorem assignVariable_quiet {name : String} (nr : name ≠ "NR")
    (fnr : name ≠ "FNR") (v : Value) :
    Primitive Quiet (assignVariable name v) := by
  apply assignVariable_of
  · intro s kind
    have other : s ≠ .nr ∧ s ≠ .fnr := by
      constructor
      · rintro rfl
        exact nr (NameKind.ofName_eq_nr kind)
      · rintro rfl
        exact fnr (NameKind.ofName_eq_fnr kind)
    apply setSpecials_quiet fun specials => specials.setNumber v.toNumber s
    · intro specials
      cases s <;> first | rfl | exact absurd rfl other.1
    · intro specials
      cases s <;> first | rfl | exact absurd rfl other.2
  · intro s _ t
    apply setSpecials_quiet fun specials => specials.setText t s
    · intro specials
      cases s <;> rfl
    · intro specials
      cases s <;> rfl

theorem names_useArray_cases (n : Names) (name : String) :
    (∃ id, n.arrays.get? name = some id ∧ n.useArray name = .ok (n, id)) ∨
      (n.arrays.get? name = none ∧ n.useArray name = .ok (n.newArray name)) ∨
      ∃ cause, n.useArray name = .error cause := by
  unfold Names.useArray
  cases harray : n.arrays.get? name with
  | some id => exact .inl ⟨id, rfl, rfl⟩
  | none =>
      cases n.scalars.get? name with
      | none => exact .inr (.inl ⟨rfl, rfl⟩)
      | some v =>
          by_cases empty : v = .text ""
          · exact .inr (.inl ⟨rfl, if_pos empty⟩)
          · exact .inr (.inr ⟨.scalarAsArray name, if_neg empty⟩)

theorem useArray_primitive (name : String) : Primitive C (useArray name) := by
  refine .get_bind (fun _ _ => rfl) fun m => ?_
  obtain ⟨id, -, found⟩ | ⟨free, found⟩ | ⟨cause, refused⟩ :=
    names_useArray_cases m.names name
  · rw [found]
    exact ⟨.refl, fun _ => rfl, rfl, fun _ _ h => nomatch h⟩
  · rw [found]
    have change := Change.newArray name free
    exact ⟨.single (Admits.of_change change rfl rfl), fun _ => rfl, rfl,
      fun _ _ h => nomatch h⟩
  · rw [refused]
    refine ⟨.refl, fun _ => rfl, rfl, ?_⟩
    intro e m' h
    cases h
    exact .fatal cause

theorem updateArray_primitive (id : ArrayId) (f : Table Value → Table Value) :
    Primitive C (updateArray id f) :=
  .modify
    (fun m => Admits.of_change (.elements id (f (m.names.array id))) rfl rfl)
    (fun _ => rfl) fun _ _ => rfl

theorem getElement_primitive (name key : String) :
    Primitive C (getElement name key) := by
  refine (useArray_primitive name).bind fun id => ?_
  refine (arrayAt_primitive id).bind fun t => ?_
  cases t.get? key with
  | some v => exact .pure v
  | none => exact (updateArray_primitive id _).bind fun _ => .pure Value.unset

theorem setElement_primitive (name key : String) (v : Value) :
    Primitive C (setElement name key v) :=
  (useArray_primitive name).bind fun id => updateArray_primitive id _

theorem deleteElement_primitive (name key : String) :
    Primitive C (deleteElement name key) :=
  (useArray_primitive name).bind fun id => updateArray_primitive id _

theorem clearArray_primitive (name : String) : Primitive C (clearArray name) :=
  (useArray_primitive name).bind fun id => updateArray_primitive id _

/-! ## Output and input -/

theorem closeTarget_primitive (target : String) :
    Primitive C (closeTarget target) := by
  refine .get_bind (fun _ _ => rfl) fun m => ?_
  have close : Primitive C (modify fun m => { m with
    output := m.output.close target }) :=
    .modify (fun m => Admits.of_change (.opened _) rfl rfl)
      (fun _ => rfl) fun _ _ => rfl
  exact close.bind (fun _ => .pure (m.output.isOpen target)) m

theorem recordsWith_primitive (text separator : String) :
    Primitive C (recordsWith text separator) := by
  unfold recordsWith
  split
  · exact .pure []
  · split
    · exact .pure (Splitter.paragraphs text)
    · cases Splitter.ofRecordSeparator? separator with
      | some s => exact .pure (s.records text)
      | none =>
          refine regex_bind_primitive fun found fails => ?_
          cases result : Splitter.ofPattern separator found with
          | ok s => exact .pure (s.records text)
          | error e => exact .throw (ofPattern_raised fails result)

theorem records_primitive : Primitive Change records := by
  refine .get_bind (fun m s => by rw [Change.amid_eq]; rfl) fun m => ?_
  dsimp only
  cases m.input.records with
  | some r => exact .pure (some r)
  | none =>
      cases m.input.text with
      | none => exact .pure none
      | some text =>
          refine Primitive.get_bind (fun _ _ => rfl) (fun m => ?_) m
          refine (recordsWith_primitive text m.specials.rs).bind (fun r => ?_) m
          have keep : Primitive Change (modify fun m => { m with
            input := { m.input with records := some r.toArray } }) :=
            .modify (fun _ => .records r.toArray) (fun _ => rfl) fun m s => by
              rw [Change.amid_eq, Change.amid_eq]; rfl
          exact keep.bind fun _ => .pure (some r.toArray)

theorem countRecord_primitive : Primitive Change countRecord :=
  setSpecials_primitive fun s => { s with
    nr := s.nr + Number.one, fnr := s.fnr + Number.one }

theorem setCursor_primitive (path : String) (c : Option FileCursor) :
    Primitive C (setCursor path c) :=
  .modify (fun _ => Admits.of_change (.cursors _) rfl rfl)
    (fun _ => rfl) fun _ _ => rfl

theorem openFile_cases (system : FileSystem) (path : String) :
    openFile system path = throw (.unread path) ∨
    Primitive C (openFile system path) := by
  unfold openFile
  split
  · exact .inl rfl
  · refine .inr ((note_primitive _).bind fun _ => ?_)
    exact (setCursor_primitive path _).bind fun _ => .pure _
  · refine .inr ((setCursor_primitive path _).bind fun _ => ?_)
    exact (note_primitive _).bind fun _ => .pure _

theorem closeFile_primitive (name : String) : Primitive C (closeFile name) := by
  have path : Primitive C (pathOf name) := .view fun _ _ => rfl
  refine path.bind fun path => ?_
  cases path with
  | none => exact .pure false
  | some path =>
      refine (cursorAt_primitive path).bind fun cursor => ?_
      exact (setCursor_primitive path none).bind fun _ => .pure cursor.isSome

/-! ## Locations -/

theorem readAt_primitive (l : Location) : Primitive C (readAt l) := by
  cases l with
  | field index => exact readField_primitive index
  | «variable» name => exact readVariable_primitive name
  | element array key => exact getElement_primitive array key

theorem writeAt_primitive (l : Location) (v : Value) :
    Primitive Change (writeAt l v) := by
  cases l with
  | field index => exact assignField_primitive index v
  | «variable» name => exact assignVariable_primitive name v
  | element array key => exact setElement_primitive array key v

theorem writeAt_quiet {l : Location} (nr : l ≠ .variable "NR")
    (fnr : l ≠ .variable "FNR") (v : Value) :
    Primitive Quiet (writeAt l v) := by
  cases l with
  | field index => exact assignField_primitive index v
  | «variable» name =>
      exact assignVariable_quiet (by simpa using nr) (by simpa using fnr) v
  | element array key => exact setElement_primitive array key v

end Changing

end Exec

theorem applyArithmetic_primitive {C : Machine → Machine → Prop}
    (op : Arithmetic) (left right : Value) :
    Primitive C (applyArithmetic op left right) := by
  unfold applyArithmetic
  cases op.apply left.toNumber right.toNumber with
  | ok x => exact .pure _
  | error e => exact .fatal (.division e)

end Awk
