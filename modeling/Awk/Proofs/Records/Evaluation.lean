import Awk.Proofs.Invariant
import Awk.Proofs.Records.Queue
import Awk.Proofs.Termination.Run
import Mathlib.Logic.Function.Iterate

/-!
# Reading in expressions and statements

A subscript or field number without `getline` and without calls takes no notice
of the main input.  If every `getline` of a program has such a target, then
whatever the program evaluates or executes does the same over a cursor and over
a queue, in the bodies of functions as well.  The cursor only moves forward over
the records of one cut, and the numbers of records move with it, unless the
program assigns them.
-/

namespace Awk

open Exec (Keeps)

/-! ## What does not read -/

def SameNumbers (m m' : Machine) : Prop :=
  m'.specials.nr = m.specials.nr ∧ m'.specials.fnr = m.specials.fnr

structure Stays (counted : Prop) (m m' : Machine) : Prop where
  limits : m'.limits = m.limits
  input : m'.input = m.input
  functions : m'.functions = m.functions
  numbers : counted → SameNumbers m m'
  coherent : m.regexes.Coherent → m'.regexes.Coherent

instance (counted : Prop) : IsPreorder Machine (Stays counted) where
  refl _ := ⟨rfl, rfl, rfl, fun _ => ⟨rfl, rfl⟩, id⟩
  trans _ _ _ h₁ h₂ :=
    ⟨h₂.limits.trans h₁.limits, h₂.input.trans h₁.input,
      h₂.functions.trans h₁.functions,
      fun c => ⟨(h₂.numbers c).1.trans (h₁.numbers c).1,
        (h₂.numbers c).2.trans (h₁.numbers c).2⟩,
      h₂.coherent ∘ h₁.coherent⟩

structure Still (counted : Prop) (m m' : Machine) : Prop where
  change : Change m m'
  input : m'.input = m.input
  numbers : counted → SameNumbers m m'

section Stays

variable {counted : Prop} {m m' : Machine}

theorem Quiet.still (quiet : Quiet m m') : Still counted m m' :=
  ⟨quiet.change, quiet.input, fun _ => ⟨quiet.nr, quiet.fnr⟩⟩

instance : Admits (Still counted) := ⟨fun silent => silent.toQuiet.still⟩

theorem Still.stays (still : Still counted m m') : Stays counted m m' :=
  ⟨still.change.limits, still.input, still.change.functions, still.numbers,
    still.change.coherent⟩

theorem Effect.stays (step : Effect m m') : Stays counted m m' := by
  cases step <;> exact ⟨rfl, rfl, rfl, fun _ => ⟨rfl, rfl⟩, id⟩

theorem Move.stays (step : Move m m') : Stays counted m m' := by
  cases step <;> exact ⟨rfl, rfl, rfl, fun _ => ⟨rfl, rfl⟩, id⟩

theorem writable_of_spares {l : Location}
    (spares : counted → l ≠ .variable "NR" ∧ l ≠ .variable "FNR") :
    Writable (Still counted) l := by
  intro v
  by_cases h : counted
  · exact (Exec.writeAt_quiet (spares h).1 (spares h).2 v).mono fun _ _ =>
      Quiet.still
  · cases l with
    | field index => exact Exec.assignField_primitive index v
    | element array key => exact Exec.setElement_primitive array key v
    | «variable» name =>
        have uncounted (f : Specials → Specials) :
            Primitive (Still counted) (modify fun m => { m with
              specials := f m.specials }) :=
          .modify (fun m => ⟨.specials _, rfl, fun counted => absurd counted h⟩)
            (fun _ => rfl) fun _ _ => rfl
        exact Exec.assignVariable_of name v
          (fun s _ => uncounted (·.setNumber v.toNumber s)) fun s _ t =>
            uncounted (·.setText t s)

theorem write_of_spares {e : Expr} (spares : counted →
    (Part.expr e).SparesNumbers) {place : Place} (assigned : place ∈ e.assigned)
    {l : Location} (here : l.At place) :
    Writable (Still counted) l :=
  writable_of_spares fun h => (spares h).ne assigned here

end Stays

/-! ## Taking no notice of the input -/

/-- The first computation does not read, and the second does the same over any
input. -/
def Aloof (counted : Prop) : ExecRelation := fun _ x y =>
  ∀ m, Stays counted m (x.final m) ∧
    ∀ input, y (m.withInput input) = mapState (·.withInput input) (x m)

section Aloof

variable {counted : Prop} {α β : Type}

theorem aloof_of_primitive {C : Machine → Machine → Prop} {x : Exec α}
    (hC : ∀ m m', C m m' → Stays counted m m') (hx : Primitive C x) :
    Aloof counted α x x := by
  intro m
  refine ⟨hx.keeps hC m, ?_⟩
  exact hx.withInput (fun m m' step => (hC m m' step).limits)
    (fun m m' step => (hC m m' step).input) m

theorem Aloof.bind {x₁ x₂ : Exec α} {f₁ f₂ : α → Exec β}
    (hx : Aloof counted α x₁ x₂) (hf : ∀ a, Aloof counted β (f₁ a) (f₂ a)) :
    Aloof counted β (x₁ >>= f₁) (x₂ >>= f₂) := by
  intro m
  have stays : Keeps (Stays counted) (x₁ >>= f₁) :=
    Keeps.bind (fun m => (hx m).1) fun a m => (hf a m).1
  refine ⟨stays m, fun input => ?_⟩
  have same := (hx m).2 input
  cases result : x₁ m with
  | ok a m' =>
      rw [result] at same
      rw [Exec.bind_ok result, Exec.bind_ok same]
      exact (hf a m').2 input
  | error e m' =>
      rw [result] at same
      rw [Exec.bind_error result, Exec.bind_error same]
      rfl

theorem aloof_sequential : Sequential (Aloof counted) (Still counted) where
  bind := Aloof.bind
  primitive := aloof_of_primitive fun _ _ => Still.stays

theorem throw_aloof (e : Fault) : Aloof counted α (throw e) (throw e) :=
  fun m => ⟨refl_of (Stays counted) m, fun _ => rfl⟩

theorem aloof_compatible (run₁ run₂ : Services) :
    Compatible (Aloof counted) run₁ run₂
      (fun x => x.isPlain = true ∧ (counted → x.SparesNumbers))
        (Still counted) where
  toSequential := aloof_sequential
  write := fun node _ assigned _ here => write_of_spares node.2 assigned here
  nextRecord := fun node => by simp [Part.isPlain] at node
  nextLine := fun _ => readNextLine_related aloof_sequential fun _ =>
    throw_aloof _
  call := fun node other => by simp [Part.isPlain, Part.callee?, other] at node

theorem storeLine_aloof {place : Option Place}
    (plain : (Part.expr (.getline place none)).hasPlainTarget = true)
    (spares : counted → ∀ x ∈ (Expr.getline place none).parts, x.SparesNumbers)
    (run₁ run₂ : Services) (text : String) :
    Aloof counted Unit (storeLine (Place.locateOption run₁ place) text)
      (storeLine (Place.locateOption run₂ place) text) := by
  simp only [Expr.parts, List.forall_mem_cons] at spares
  have target : ∀ x ∈ Place.partsOption place,
      x.isPlain = true ∧ (counted → x.SparesNumbers) := by
    intro x inside
    exact ⟨List.all_eq_true.1 plain x inside, fun h => (spares h).2 x inside⟩
  have locate : ∀ p ∈ place, Into (Aloof counted) (Writable (Still counted))
      (p.locate run₁) (p.locate run₂) := by
    intro p inside
    have into :=
      Place.locateOption_into (aloof_compatible run₁ run₂) place target p inside
    refine into.imp fun l here => ?_
    exact write_of_spares (fun h => (spares h).1)
      (Option.mem_toList.2 inside) here
  exact storeLine_related aloof_sequential locate text

end Aloof

/-! ## Moving forward -/

def Input.Of (text : String) (i : Input) : Prop :=
  i = { text := some text } ∨ ∃ separator lines,
    Splitter.recordsWith Regex.compile text separator = .ok lines ∧
    i.text = some text ∧ i.records = some lines.toArray ∧ i.next ≤ lines.length

/-- The cursor moves forward, over the same records once there are some, and
counted numbers of records move as far. -/
structure Onward (counted : Prop) (m m' : Machine) : Prop where
  absent : m.input = {} → m'.input = {}
  text : ∀ text, m.input.Of text → m'.input.Of text
  cut : ∀ records, m.input.records = some records →
    m'.input = { m.input with next := m'.input.next } ∧
    m'.input.next ≤ max m.input.next records.size
  next : m.input.next ≤ m'.input.next
  numbers : counted → m'.specials.nr =
    (· + Number.one)^[m'.input.next - m.input.next] m.specials.nr ∧
    m'.specials.fnr = (· + Number.one)^[m'.input.next - m.input.next]
      m.specials.fnr

section Onward

variable {counted : Prop} {m m' : Machine}

theorem iterate_sub_trans {α : Type} (f : α → α) {a b c : Nat} (h₁ : a ≤ b)
    (h₂ : b ≤ c) (x : α) : f^[c - b] (f^[b - a] x) = f^[c - a] x := by
  rw [← Function.iterate_add_apply]
  congr 1
  omega

instance : IsPreorder Machine (Onward counted) where
  refl m := by
    refine ⟨id, fun _ => id, fun _ _ => ⟨rfl, Nat.le_max_left _ _⟩,
      Nat.le_refl _, fun _ => ?_⟩
    rw [Nat.sub_self]
    exact ⟨rfl, rfl⟩
  trans m m₁ _ h₁ h₂ := by
    refine ⟨h₂.absent ∘ h₁.absent, fun text => h₂.text text ∘ h₁.text text,
      fun records cut => ?_, Nat.le_trans h₁.next h₂.next, fun c => ?_⟩
    · obtain ⟨same₁, inside₁⟩ := h₁.cut records cut
      have cut₁ : m₁.input.records = some records := by rw [same₁, cut]
      obtain ⟨same₂, inside₂⟩ := h₂.cut records cut₁
      refine ⟨?_, Nat.le_trans inside₂ (Nat.max_le.2 ⟨inside₁,
        Nat.le_max_right _ _⟩)⟩
      rw [same₂, same₁]
    · rw [(h₂.numbers c).1, (h₂.numbers c).2, (h₁.numbers c).1,
        (h₁.numbers c).2]
      exact ⟨iterate_sub_trans _ h₁.next h₂.next _,
        iterate_sub_trans _ h₁.next h₂.next _⟩

theorem Stays.onward (stays : Stays counted m m') : Onward counted m m' := by
  have same := stays.input
  refine ⟨same.trans, fun text => ?_, fun records _ => ?_, ?_, fun c => ?_⟩
  · rw [same]
    exact id
  · rw [same]
    exact ⟨rfl, Nat.le_max_left _ _⟩
  · exact Nat.le_of_eq (congrArg Input.next same.symm)
  · rw [same, Nat.sub_self]
    exact stays.numbers c

structure Ready (functions : Table Function) (m : Machine) : Prop where
  functions : m.functions = functions
  coherent : m.regexes.Coherent

variable {functions : Table Function}

theorem Ready.stays (ready : Ready functions m) (stays : Stays counted m m') :
    Ready functions m' :=
  ⟨stays.functions.trans ready.functions, stays.coherent ready.coherent⟩

theorem records_ready {found : Option (Array String)}
    (ready : Ready functions m) (h : Exec.records m = .ok found m') :
    Ready functions m' := by
  obtain ⟨-, -, -, rfl⟩ | ⟨_, -, -, rfl⟩ | ⟨_, _, c, -, -, -, kept, -, rfl⟩ :=
    Exec.records_cases ready.coherent h
  · exact ready
  · exact ready
  · exact ⟨ready.functions, kept⟩

theorem records_onward {found : Option (Array String)}
    (coherent : m.regexes.Coherent) (h : Exec.records m = .ok found m') :
    Onward counted m m' := by
  obtain ⟨rfl, -, -, rfl⟩ | ⟨records, rfl, -, rfl⟩ |
      ⟨text, lines, c, attached, uncut, split, kept, rfl, rfl⟩ :=
    Exec.records_cases coherent h
  · exact refl_of (Onward counted) _
  · exact refl_of (Onward counted) _
  · refine ⟨?_, ?_, ?_, Nat.le_refl _, fun _ => ?_⟩
    · intro absent
      rw [absent] at attached
      contradiction
    · rintro text' (fresh | ⟨_, _, -, -, cut, -⟩)
      · rw [fresh] at attached
        obtain rfl : text' = text := Option.some.inj attached
        refine .inr ⟨m.specials.rs, lines, split, ?_⟩
        simp [fresh]
      · rw [uncut] at cut
        contradiction
    · intro records cut
      rw [uncut] at cut
      contradiction
    · rw [Nat.sub_self]
      exact ⟨rfl, rfl⟩

end Onward

/-! ## Reading one record -/

def Machine.counted (m : Machine) : Machine :=
  { m with specials := { m.specials with
      nr := m.specials.nr + Number.one
      fnr := m.specials.fnr + Number.one } }

section Passing

variable {counted : Prop} {m m' : Machine} {records : Array String}
    {record : String}

theorem drop_of_next {α : Type} {records : Array α} {i : Nat} {record : α}
    (next : records[i]? = some record) :
    records.toList.drop i = record :: records.toList.drop (i + 1) := by
  obtain ⟨bound, here⟩ := Array.getElem?_eq_some_iff.1 next
  rw [List.drop_eq_getElem_cons (by simpa using bound), ← here,
    Array.getElem_toList]

def NextNumbers (m m' : Machine) : Prop :=
  m'.specials.nr = m.specials.nr + Number.one ∧
  m'.specials.fnr = m.specials.fnr + Number.one

theorem onward_of_passed (cut : m.input.records = some records)
    (next : records[m.input.next]? = some record)
    (moved : m'.input = { m.input with next := m.input.next + 1 })
    (numbers : counted → NextNumbers m m') : Onward counted m m' := by
  have inside : m.input.next < records.size :=
    (Array.getElem?_eq_some_iff.1 next).1
  refine ⟨?_, ?_, ?_, ?_, ?_⟩
  · intro absent
    rw [absent] at cut
    contradiction
  · rintro text (fresh | ⟨separator, lines, split, attached, same, -⟩)
    · rw [fresh] at cut
      contradiction
    · obtain rfl : records = lines.toArray :=
        Option.some.inj (cut.symm.trans same)
      refine .inr ⟨separator, lines, split, ?_⟩
      rw [moved]
      exact ⟨attached, same, inside⟩
  · intro records' cut'
    obtain rfl : records = records' := Option.some.inj (cut.symm.trans cut')
    rw [moved]
    exact ⟨rfl, Nat.le_trans inside (Nat.le_max_right _ _)⟩
  · rw [moved]
    exact Nat.le_succ _
  · intro c
    rw [moved, Nat.add_sub_cancel_left]
    exact numbers c

end Passing

namespace Queue

theorem take_bind {α : Type} (k : Except Number String → Exec α) :
    take >>= k = left >>= fun
      | none => k (.error (-Number.one))
      | some [] => k (.error Number.zero)
      | some (record :: rest) => keep rest >>= fun _ => k (.ok record) := by
  unfold take
  rw [bind_assoc]
  congr 1
  funext records
  rcases records with _ | (_ | ⟨record, rest⟩) <;> rfl

theorem keep_queued {m : Machine} {records : Array String}
    (cut : m.input.records = some records) :
    keep (records.toList.drop (m.input.next + 1)) m.queued =
      .ok () m.passed.queued := by
  refine congrArg (EStateM.Result.ok ()) ?_
  simp [Machine.passed, Machine.queued, Machine.withInput, Input.queued, cut]

theorem take_of_next {m : Machine} {records : Array String} {record : String}
    (cut : m.input.records = some records)
    (next : records[m.input.next]? = some record) :
    take m.queued = .ok (.ok record) m.passed.queued := by
  have queued : m.queued.input.records =
      some (record :: records.toList.drop (m.input.next + 1)).toArray := by
    simp [Machine.queued, Machine.withInput, Input.queued, cut,
      drop_of_next next]
  unfold take
  rw [Exec.bind_ok (left_of_cut queued)]
  exact Exec.bind_ok (keep_queued cut) _

theorem take_of_done {m : Machine} {records : Array String}
    (cut : m.input.records = some records)
    (done : records.size ≤ m.input.next) :
    take m.queued = .ok (.error Number.zero) m.queued := by
  have nothing : records.toList.drop m.input.next = [] := by simpa using done
  have queued : m.queued.input.records = some (#[] : Array String) := by
    simp [Machine.queued, Machine.withInput, Input.queued, cut, nothing]
  unfold take
  rw [Exec.bind_ok (left_of_cut queued)]
  rfl

/-- To go on with what is taken is to go on with the record at the cursor. -/
theorem take_mirrors {α β : Type} {R : Machine → α → β → Prop}
    {f : Option (Array String) → Exec α} {k : Except Number String → Exec β}
    {m : Machine}
    (none : ∀ m₁, Exec.records m = .ok none m₁ →
      Mirrors R (f none m₁) (k (.error (-Number.one)) m₁.queued))
    (done : ∀ records m₁, Exec.records m = .ok (some records) m₁ →
      m₁.input.records = some records → records.size ≤ m₁.input.next →
      Mirrors R (f (some records) m₁) (k (.error Number.zero) m₁.queued))
    (taken : ∀ records record m₁, Exec.records m = .ok (some records) m₁ →
      m₁.input.records = some records → records[m₁.input.next]? = some record →
      Mirrors R (f (some records) m₁) (k (.ok record) m₁.passed.queued)) :
    Mirrors R ((Exec.records >>= f) m) ((take >>= k) m.queued) := by
  rw [take_bind]
  refine (left_mirrors m).bind ?_
  rintro found _ m₁ looked - ⟨rfl, cut⟩
  cases found with
  | none => exact none m₁ looked
  | some records =>
      cases next : records[m₁.input.next]? with
      | none =>
          have behind := Array.getElem?_eq_none_iff.1 next
          have nothing : records.toList.drop m₁.input.next = [] := by
            simpa using behind
          simp only [Option.map_some, nothing]
          exact done records m₁ looked cut behind
      | some record =>
          simp only [Option.map_some, drop_of_next next]
          rw [Exec.bind_ok (keep_queued cut)]
          exact taken records record m₁ looked cut next

end Queue

/-! ## Everything that a program does -/

/-- From states with the given functions, the first does over a cursor what the
second does over a queue, and moves forward. -/
def Mirrored (functions : Table Function) (counted : Prop) :
    ExecRelation := fun _ x y =>
  ∀ m, Ready functions m →
    Mirrors (fun m' a b => a = b ∧ Ready functions m' ∧ Onward counted m m')
      (x m) (y m.queued)

def Orderly (parts : List Part) (counted : Prop) : Prop :=
  ∀ x ∈ parts, x.hasPlainTarget = true ∧ (counted → x.SparesNumbers)

section Mirrored

variable {functions : Table Function} {counted : Prop} {α β : Type}

theorem Mirrored.bind {x₁ x₂ : Exec α} {f₁ f₂ : α → Exec β}
    (hx : Mirrored functions counted α x₁ x₂)
    (hf : ∀ a, Mirrored functions counted β (f₁ a) (f₂ a)) :
    Mirrored functions counted β (x₁ >>= f₁) (x₂ >>= f₂) := by
  intro m ready
  refine (hx m ready).bind ?_
  rintro a _ m' - - ⟨rfl, ready', first⟩
  refine (hf a m' ready').imp ?_
  rintro m'' b _ - ⟨rfl, ready'', second⟩
  exact ⟨rfl, ready'', trans_of (Onward counted) first second⟩

theorem Aloof.mirrored {x y : Exec α} (h : Aloof counted α x y) :
    Mirrored functions counted α x y := by
  intro m ready
  obtain ⟨stays, same⟩ := h m
  change Mirrors _ _ (y (m.withInput m.input.queued))
  rw [same]
  unfold Exec.final at stays
  cases result : x m with
  | ok a m' =>
      rw [result] at stays
      refine .of_eq ⟨rfl, ready.stays stays, stays.onward⟩ ?_
      rw [Machine.queued, show m'.input = m.input from stays.input]
  | error e m' => exact .error

theorem mirrored_sequential :
    Sequential (Mirrored functions counted) (Still counted) where
  bind := Mirrored.bind
  primitive := fun h => (aloof_of_primitive (fun _ _ => Still.stays) h).mirrored

theorem exceed_mirrored (fault : Exceeded → Fault) (limit : Int) :
    Mirrored functions counted α (Exec.exceed fault limit)
      (Exec.exceed fault limit) :=
  fun _ _ => .error

/-! ### Reading -/

theorem readNextRecord_mirrored {place : Option Place}
    (plain : (Part.expr (.getline place none)).hasPlainTarget = true)
    (spares : counted → ∀ x ∈ (Expr.getline place none).parts, x.SparesNumbers)
    (run₁ run₂ : Services) :
    Mirrored functions counted Number
      (readNextRecord (Place.locateOption run₁ place))
      (Queue.getline (Place.locateOption run₂ place)) := by
  intro m ready
  have opened {found : Option (Array String)} {m₁ : Machine}
      (looked : Exec.records m = .ok found m₁) :
      Ready functions m₁ ∧ Onward counted m m₁ :=
    ⟨records_ready ready looked, records_onward ready.coherent looked⟩
  refine Queue.take_mirrors ?_ ?_ ?_
  · intro m₁ looked
    exact .ok ⟨rfl, opened looked⟩
  · intro records m₁ looked cut done
    dsimp only
    rw [Exec.get_bind_apply, Array.getElem?_eq_none done]
    exact .ok ⟨rfl, opened looked⟩
  · intro records record m₁ looked cut next
    obtain ⟨ready₁, onward⟩ := opened looked
    dsimp only
    rw [Exec.get_bind_apply, next]
    -- The target is found and filled in the same way before and behind the
    -- taking off.
    obtain ⟨stays, elsewhere⟩ :=
      storeLine_aloof plain spares run₁ run₂ record m₁
    have same := elsewhere m₁.passed.queued.input
    cases stored : storeLine (Place.locateOption run₁ place) record m₁ with
    | error e m₂ =>
        rw [stored] at same
        dsimp only
        rw [Exec.bind_error stored,
          Exec.bind_error (m := m₁.passed.queued) same]
        exact .error
    | ok _ m₂ =>
        rw [stored] at same
        rw [Exec.final_ok stored] at stays
        dsimp only
        rw [Exec.bind_ok stored, Exec.bind_ok (m := m₁.passed.queued) same]
        have passed : m₂.counted.withInput { m₂.input with
          next := m₁.input.next + 1 } = m₂.counted.passed := by
          rw [← stays.input]
          rfl
        have forward : Onward counted m₁ m₂.counted.passed := by
          refine onward_of_passed cut next ?_ fun c => ?_
          · simp only [Machine.passed, Machine.counted, stays.input]
          · obtain ⟨nr, fnr⟩ := stays.numbers c
            exact ⟨congrArg (· + Number.one) nr, congrArg (· + Number.one) fnr⟩
        refine .of_eq (m := m₂.counted.withInput _) ⟨rfl, ?_, ?_⟩ ?_
        · exact ⟨stays.functions.trans ready₁.functions,
            stays.coherent ready₁.coherent⟩
        · rw [passed]
          exact trans_of (Onward counted) onward forward
        · rw [passed]
          simp [Machine.passed, Machine.counted, Machine.queued,
            Machine.withInput, Input.queued, stays.input]

/-! ### Calls -/

variable {run₁ run₂ : BodyRunner} {f : Function}

theorem Mirrors.mapState {R S : Machine → α → β → Prop}
    {g₁ g₂ : Machine → Machine} {r : EStateM.Result Fault Machine α}
    {r' : EStateM.Result Fault Machine β} (h : Mirrors R r r')
    (same : ∀ m, g₂ m.queued = (g₁ m).queued)
    (related : ∀ m a b, R m a b → S (g₁ m) a b) :
    Mirrors S (Awk.mapState g₁ r) (Awk.mapState g₂ r') := by
  cases h with
  | ok here => exact .of_eq (related _ _ _ here) (same _)
  | error => exact .error

theorem enter_withInput (m : Machine) (f : Function) (bindings : List Binding)
    (input : Input) :
    (m.withInput input).enter f bindings =
      (m.enter f bindings).withInput input := by
  unfold Machine.enter Machine.noted Machine.withInput
  dsimp only
  split <;> rfl

theorem enter_stays (m : Machine) (f : Function) (bindings : List Binding) :
    Stays counted m (m.enter f bindings) := by
  obtain ⟨lines, entered⟩ := m.enter_eq f bindings
  rw [entered]
  exact ⟨rfl, rfl, rfl, fun _ => ⟨rfl, rfl⟩, id⟩

theorem callBound_mirrored
    (hrun : Mirrored functions counted Unit (run₁ f) (run₂ f))
    (bindings : List Binding) :
    Mirrored functions counted Value (callBound run₁ f bindings)
      (callBound run₂ f bindings) := by
  intro m ready
  have body : Mirrored functions counted Value (bodyValue run₁ f)
      (bodyValue run₂ f) :=
    hrun.bind fun _ => mirrored_sequential.primitive (.view fun _ _ => rfl)
  have entered : Stays counted m (m.enter f bindings) :=
    enter_stays m f bindings
  have queued : m.queued.enter f bindings = (m.enter f bindings).queued := by
    rw [Machine.queued, enter_withInput, Machine.queued, entered.input]
  rw [callBound_apply, callBound_apply, queued]
  refine (body _ (ready.stays entered)).mapState (fun _ => rfl) ?_
  rintro m₁ v _ ⟨rfl, ready₁, onward⟩
  have left : Stays counted m₁ (m.leave f m₁) :=
    ⟨rfl, rfl, rfl, fun _ => ⟨rfl, rfl⟩, id⟩
  refine ⟨rfl, ready₁.stays left, ?_⟩
  exact trans_of (Onward counted) entered.onward
    (trans_of (Onward counted) onward left.onward)

theorem callFunction_mirrored
    (hrun : Mirrored functions counted Unit (run₁ f) (run₂ f))
    {args₁ args₂ : List Argument}
    (hargs : List.Forall₂ (Argument.Related (Mirrored functions counted)) args₁
      args₂) :
    Mirrored functions counted Value (callFunction run₁ f args₁)
      (callFunction run₂ f args₂) := by
  intro m ready
  by_cases full : m.limits.calls < m.depth + 1
  · have full' : m.queued.limits.calls < m.queued.depth + 1 := full
    rw [callFunction_refused full, callFunction_refused full']
    exact .error
  · have room : ¬m.queued.limits.calls < m.queued.depth + 1 := full
    have bindings : Mirrored functions counted (List Binding)
        (bindingsOf f.params.length args₁) (bindingsOf f.params.length args₂) :=
      bindingsOf_related mirrored_sequential hargs f.params.length
    have deeper : Stays counted m m.deeper :=
      ⟨rfl, rfl, rfl, fun _ => ⟨rfl, rfl⟩, id⟩
    have inner :=
      bindings.bind (callBound_mirrored hrun) m.deeper (ready.stays deeper)
    rw [callFunction_apply full, callFunction_apply room]
    refine inner.mapState (fun _ => rfl) ?_
    rintro m₁ v _ ⟨rfl, ready₁, onward⟩
    have shallower : Stays counted m₁ m₁.shallower :=
      ⟨rfl, rfl, rfl, fun _ => ⟨rfl, rfl⟩, id⟩
    refine ⟨rfl, ready₁.stays shallower, ?_⟩
    exact trans_of (Onward counted) deeper.onward
      (trans_of (Onward counted) onward shallower.onward)

/-! ### Statements and bodies -/

variable {parts : List Part}

theorem evalWhole_mirrored {run₁ run₂ : Services} {e : Expr}
    (h : Mirrored functions counted Value (e.eval run₁) (e.eval run₂)) :
    Mirrored functions counted Value (evalWhole run₁ e) (evalWhole run₂ e) := by
  intro m ready
  unfold evalWhole
  rw [Exec.get_bind_apply, Exec.get_bind_apply]
  change Mirrors _ _
    ((if m.platform.room.fits m.limits.calls m.depth e then e.eval run₂
      else throw .noRoom : Exec Value) m.queued)
  split
  · exact h m ready
  · exact .error

theorem mirrored_looping (orderly : Orderly parts counted)
    (hrun : ∀ name f, functions.get? name = some f →
      Mirrored functions counted Unit (run₁ f) (run₂ f)) :
    Looping (Mirrored functions counted) (.limited run₁)
      (.limited (Queue.services run₂)) (· ∈ parts) (Still counted) where
  toSequential := mirrored_sequential
  write := fun node _ assigned _ here =>
    write_of_spares (orderly _ node).2 assigned here
  nextRecord := by
    intro place node target _
    refine readNextRecord_mirrored (orderly _ node).1 (fun h => ?_) _ _
    simp only [Expr.parts, List.forall_mem_cons]
    exact ⟨(orderly _ node).2 h,
      fun x inside => (orderly x (target x inside)).2 h⟩
  nextLine := fun _ =>
    readNextLine_related mirrored_sequential fun _ => (throw_aloof _).mirrored
  call := by
    intro name args _ other arguments m ready
    cases defined : m.functions.get? name with
    | some f =>
        rw [callByName_defined other defined,
          callByName_defined (m := m.queued) other defined]
        rw [ready.functions] at defined
        exact callFunction_mirrored (hrun name f defined) arguments m ready
    | none =>
        rw [callByName_unknown other defined,
          callByName_unknown (m := m.queued) other defined]
        exact mirrored_sequential.bind
          (mirrored_sequential.primitive (Exec.note_primitive _))
          (fun _ => mirrored_sequential.pure _) m ready
  straight := fun h => (aloof_of_primitive (fun _ _ => Effect.stays) h).mirrored
  whole := evalWhole_mirrored
  whileLoop := by
    intro kind _ _ _ _ test turn m
    exact whileTurns_related mirrored_sequential (exceed_mirrored _ _) test turn
      m.limits.iterations.toNat m
  doLoop := by
    intro _ _ _ _ test turn m
    exact doTurns_related mirrored_sequential (exceed_mirrored _ _) test turn
      m.limits.iterations.toNat m
  keyVariable := by
    intro name array body node
    refine writable_of_spares fun h => ?_
    obtain ⟨nr, fnr⟩ := (orderly _ node).2 h
    simp only [Part.assigns, List.mem_singleton] at nr fnr
    simp only [ne_eq, Location.variable.injEq]
    exact ⟨Ne.symm nr, Ne.symm fnr⟩
  keyLoop := by
    intro id _ _ _ keys writable turn m
    exact keyTurns_related mirrored_sequential (exceed_mirrored _ _) id writable
      turn m.limits.iterations.toNat keys m

theorem runBody_mirrored (orderly : Orderly parts counted)
    (covers : Covers parts functions) (left : Nat) {name : String}
    {f : Function} (defined : functions.get? name = some f) :
    Mirrored functions counted Unit (runBody left f)
      (Queue.runBody left f) := by
  induction left generalizing name f with
  | zero => exact fun m => exceed_mirrored .calls m.limits.calls m
  | succ left ih =>
      exact Stmt.execAll_related (mirrored_looping orderly fun name f => ih)
        f.body (covers name f defined)

inductive Queue.Bodies : BodyRunner → BodyRunner → Prop
  | standard : Bodies Awk.runFunction Queue.runFunction
  | nested (left : Nat) : Bodies (Awk.runBody left) (Queue.runBody left)

theorem Queue.exists_bodies {run : BodyRunner} (occurs : run.Occurs) :
    ∃ run', Queue.Bodies run run' := by
  cases occurs with
  | standard => exact ⟨_, .standard⟩
  | nested left => exact ⟨_, .nested left⟩

theorem Queue.Bodies.looping (orderly : Orderly parts counted)
    (covers : Covers parts functions) (bodies : Queue.Bodies run₁ run₂) :
    Looping (Mirrored functions counted) (.limited run₁)
      (.limited (Queue.services run₂))
      (· ∈ parts) (Still counted) := by
  refine mirrored_looping orderly fun name f defined => ?_
  cases bodies with
  | standard =>
      exact fun m => runBody_mirrored orderly covers m.limits.calls.toNat
        defined m
  | nested left => exact runBody_mirrored orderly covers left defined

end Mirrored

end Awk
