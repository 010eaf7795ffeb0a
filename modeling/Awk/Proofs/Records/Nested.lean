import Awk.Proofs.Records.Evaluation

/-!
# A `getline` in the target of another one

A `getline` picks its record, finds its target and stores the record there, and
only then sets the cursor: to the place behind the record it picked, wherever
the cursor is by then. What a `getline` in the target has read meanwhile is read
once more, beginning with the record that the outer one has picked, although it
was counted.
-/

namespace Awk

open Exec (Keeps)

variable {run : BodyRunner} {place : Option Place} {m m' : Machine}

theorem records_same {found : Option (Array String)}
    (h : Exec.records m = .ok found m') :
    m'.input.next = m.input.next ∧ SameNumbers m m' := by
  obtain ⟨-, -, -, rfl⟩ | ⟨records, -, -, rfl⟩ | ⟨text, lines, m₁, -, -, split,
      -, rfl⟩ :=
    Exec.records_eq_ok h
  · exact ⟨rfl, rfl, rfl⟩
  · exact ⟨rfl, rfl, rfl⟩
  · have quiet : Keeps (Stays True) (Exec.recordsWith text m.specials.rs) :=
      (Exec.recordsWith_primitive (C := Still True) text m.specials.rs).keeps
        fun _ _ => Still.stays
    have stays := quiet.of_ok split
    have cursor : m₁.input.next = m.input.next := by rw [stays.input]
    exact ⟨cursor, stays.numbers trivial⟩

theorem getline_eq_ok {v : Value} :
    (Expr.getline place none).eval run m = .ok v m' ↔
      ∃ n, v = .number n ∧ readNextRecord (Place.locateOption run place) m =
        .ok n m' := by
  simp only [Expr.eval]
  rw [Exec.bind_eq_ok]
  constructor
  · rintro ⟨n, m₁, read, last⟩
    cases last
    exact ⟨n, rfl, read⟩
  · rintro ⟨n, rfl, read⟩
    exact ⟨n, m', read, rfl⟩

theorem readNextRecord_eq_one {place : Option (Exec Location)}
    (h : readNextRecord place m = .ok Number.one m') :
    ∃ records record m₁ m₂, Exec.records m = .ok (some records) m₁ ∧
      records[m₁.input.next]? = some record ∧
      storeLine place record m₁ = .ok () m₂ ∧
      m' = { m₂.counted with input := { m₂.input with
        next := m₁.input.next + 1 } } := by
  obtain ⟨found, m₁, cut, rest⟩ := Exec.bind_eq_ok.1 h
  cases found with
  | none => cases rest
  | some records =>
      dsimp only at rest
      rw [Exec.get_bind_apply] at rest
      cases next : records[m₁.input.next]? with
      | none =>
          rw [next] at rest
          cases rest
      | some record =>
          rw [next] at rest
          obtain ⟨⟨⟩, m₂, stored, last⟩ := Exec.bind_eq_ok.1 rest
          cases last
          exact ⟨records, record, m₁, m₂, cut, next, stored, rfl⟩

theorem storeLine_mirrored {parts : List Part} {counted : Prop}
    {run' : BodyRunner} (orderly : Orderly parts counted)
    (covers : Covers parts m.functions) (bodies : Queue.Bodies run run')
    (target : ∀ x ∈ Place.partsOption place, x ∈ parts)
    (spares : counted → (Part.expr (.getline place none)).SparesNumbers)
    (text : String) :
    Mirrored m.functions counted Unit
      (storeLine (Place.locateOption run place) text)
      (storeLine (Place.locateOption (Queue.services run') place) text) := by
  have looping := bodies.looping orderly covers
  have locate : ∀ p ∈ place,
      Into (Mirrored m.functions counted) (Writable (Still counted))
        (p.locate run) (p.locate (Queue.services run')) := by
    intro p inside
    have into :=
      Place.locateOption_into looping.toCompatible place target p inside
    refine into.imp fun l here => ?_
    exact write_of_spares spares (Option.mem_toList.2 inside) here
  exact storeLine_related mirrored_sequential locate text

/-- Records that are passed stand behind the cursor, and the first of them is
the next one. -/
theorem Onward.handed_out {counted : Prop} {records : Array String}
    {record : String} (onward : Onward counted m m')
    (cut : m.input.records = some records)
    (next : records[m.input.next]? = some record) :
    ∃ taken : List String,
      m'.input = { m.input with next := m.input.next + taken.length } ∧
      taken <+: records.toList.drop m.input.next ∧
      (∀ first ∈ taken.head?, first = record) ∧
      (counted → m'.specials.nr =
        (· + Number.one)^[taken.length] m.specials.nr) := by
  obtain ⟨same, inside⟩ := onward.cut records cut
  have further := onward.next
  have here : m.input.next < records.size :=
    (Array.getElem?_eq_some_iff.1 next).1
  let taken :=
    (records.toList.drop m.input.next).take (m'.input.next - m.input.next)
  have picked : taken <+: records.toList.drop m.input.next :=
    List.take_prefix _ _
  have count : m'.input.next = m.input.next + taken.length := by
    simp only [taken, List.length_take, List.length_drop, Array.length_toList]
    omega
  refine ⟨taken, ?_, picked, ?_, ?_⟩
  · rw [← count]
    exact same
  · intro first head
    obtain ⟨rest, all⟩ := List.head?_eq_some_iff.1 head
    rw [drop_of_next next, all, List.cons_prefix_cons] at picked
    exact picked.1
  · intro h
    obtain ⟨number, -⟩ := onward.numbers h
    rw [count, Nat.add_sub_cancel_left] at number
    exact number

/-- A `getline` that gives one stores the record at the cursor and sets the
cursor behind this record, whatever its target has read.  If there is no
`getline` and no call in the target, the input stayed as it was in between: then
one record is handed out and counted. If the target reads, but each `getline` in
it, and in the functions that may be called there, has a target without
`getline` and without calls, then it has taken records off the queue that begins
at the cursor: the first of them is the one that is stored as well, and all of
them will be read once more, although they were counted. -/
theorem getline_sets_cursor_behind_its_record (occurs : run.Occurs)
    (gave : (Expr.getline place none).eval run m =
      .ok (.number Number.one) m') :
    ∃ records record m₁ m₂,
      Exec.records m = .ok (some records) m₁ ∧
      records[m.input.next]? = some record ∧
      storeLine (Place.locateOption run place) record m₁ = .ok () m₂ ∧
      m'.input = { m₂.input with next := m.input.next + 1 } ∧
      NextNumbers m₂ m' ∧
      ((Part.expr (.getline place none)).hasPlainTarget = true →
        m₂.input = m₁.input ∧
        ((∀ x ∈ (Expr.getline place none).parts, x.SparesNumbers) →
          NextNumbers m m')) ∧
      ∀ parts counted, Orderly parts counted → Covers parts m.functions →
        (∀ x ∈ Place.partsOption place, x ∈ parts) →
        (counted → (Part.expr (.getline place none)).SparesNumbers) →
        m.regexes.Coherent →
        ∃ run' taken, Queue.Bodies run run' ∧
          storeLine (Place.locateOption (Queue.services run') place) record
            m₁.queued =
            .ok () m₂.queued ∧
          m₂.input = { m₁.input with next := m.input.next + taken.length } ∧
          taken <+: records.toList.drop m.input.next ∧
          (∀ first ∈ taken.head?, first = record) ∧
          (counted →
            m'.specials.nr = (· + Number.one)^[taken.length + 1]
              m.specials.nr) := by
  obtain ⟨n, one, read⟩ := getline_eq_ok.1 gave
  cases one
  obtain ⟨records, record, m₁, m₂, cut, next, stored, rfl⟩ :=
    readNextRecord_eq_one read
  obtain ⟨cursor, nr, fnr⟩ := records_same cut
  rw [cursor] at next
  refine ⟨records, record, m₁, m₂, cut, next, stored, by rw [cursor],
    ⟨rfl, rfl⟩, ?_, ?_⟩
  · intro plain
    have stays := (storeLine_aloof plain id run run record m₁).1
    rw [Exec.final_ok stored] at stays
    refine ⟨stays.input, fun spares => ?_⟩
    obtain ⟨nr', fnr'⟩ := stays.numbers spares
    exact ⟨congrArg (· + Number.one) (nr'.trans nr),
      congrArg (· + Number.one) (fnr'.trans fnr)⟩
  · intro parts counted orderly covers target spares coherent
    have ready : Ready m.functions m₁ := records_ready ⟨rfl, coherent⟩ cut
    obtain ⟨run', bodies⟩ := Queue.exists_bodies occurs
    have mirrors :=
      storeLine_mirrored orderly covers bodies target spares record m₁ ready
    rw [stored] at mirrors
    generalize mirrored : storeLine _ record m₁.queued = r at mirrors
    obtain ⟨⟨-, -, onward⟩⟩ := mirrors
    -- The cursor was not moved before the target was found, so that the
    -- inner one picks the same record.
    rw [← cursor] at next
    obtain ⟨taken, input, picked, first, number⟩ :=
      onward.handed_out (Exec.records_found cut) next
    rw [cursor] at input picked
    refine ⟨run', taken, bodies, mirrored, input, picked, first, fun h => ?_⟩
    have number := number h
    rw [nr] at number
    rw [Function.iterate_succ_apply', ← number]
    rfl

/-- The inner `getline` moves the cursor behind the first record, and the outer
one leaves it there. -/
theorem cursor_after_getline_in_target :
    let e : Expr :=
      .getline (some (.element "a" [.getline (some (.variable "x")) none])) none
    let m : Machine := { input := { text := some "1\n2\n3\n" } }
    let m' := (e.eval runFunction).final m
    e.eval runFunction m = .ok (.number Number.one) m' ∧
      m'.input.next = m.input.next + 1 ∧ m'.specials.nr = Number.ofNat 2 := by
  intro e m m'
  have gave : e.eval runFunction m = .ok (.number Number.one) m' :=
    Exec.eq_ok_of_value? (by decide +kernel)
  obtain ⟨records, record, m₁, m₂, -, -, -, input, -⟩ :=
    getline_sets_cursor_behind_its_record .standard gave
  exact ⟨gave, by rw [input], by decide +kernel⟩

/-- Both store the first record, the next `getline` reads the second one, and at
the end three records make four. -/
theorem record_stored_by_both_getlines :
    let line (place : Place) : Expr := .getline (some place) none
    let x : Place := .variable "x"
    let y : Place := .variable "y"
    let same : Expr :=
      .binary (.comparison .eq) (.read x)
        (.read (.element "a" [.number Number.one]))
    let p : Program :=
      ⟨[⟨.begin, [.expr (line (.element "a" [line x])), .expr (line y),
        .print [same, .read y] none]⟩], []⟩
    let m := (runLoaded p [⟨"", "1\n2\n3\n"⟩] {}).final (startMachine {} {})
    m.output.text = "1 2\n" ∧ m.input.records = some #["1", "2", "3"] ∧
      m.specials.nr = Number.ofNat 4 := by
  decide +kernel

end Awk
