import Awk.Proofs.Records.Evaluation

/-!
# Every record is delivered once

A run over cursors does what a run over queues does.  So what the `BEGIN` rules
read of the first input, what the rules are given and what `getline` reads in
between, and what the `END` rules still read of the last one are the records of
the text from the first one on, none of them twice, and the numbers of records
follow.
-/

namespace Awk

open Exec (Keeps)

/-! ## Rules -/

section Rules

variable {p : Program} (plain : p.PlainTargets)

include plain

theorem Program.PlainTargets.orderly : Orderly p.parts p.SparesNumbers :=
  fun x inside => ⟨plain x inside, fun spares => spares x inside⟩

theorem program_mirrored :
    Looping (Mirrored p.table p.SparesNumbers) .standard Queue.runner
      (· ∈ p.parts)
      (Still p.SparesNumbers) :=
  Queue.Bodies.standard.looping plain.orderly p.covers

theorem rules_mirrored :
    RuleWise (Mirrored p.table p.SparesNumbers) p.rules .standard Queue.runner
      (· ∈ p.parts) (Still p.SparesNumbers) where
  toSequential := mirrored_sequential
  tests := fun _ rule _ test _ inside => p.mem_parts_of_test rule test inside
  test :=
    fun e parts => isTrue_related (program_mirrored plain).toStraight e parts
  action := fun r rule => Stmt.execAll_related (program_mirrored plain) r.action
    fun _ inside => p.mem_parts_of_action rule inside
  straight := fun h =>
    (program_mirrored plain).straight (h.mono fun _ _ => StraightEffect.effect)
  move := fun h => (aloof_of_primitive (fun _ _ => Move.stays) h).mirrored

theorem recordRules_mirrored :
    Mirrored p.table p.SparesNumbers Unit
      (do modify fun m => { m with flow := { m.flow with next := false } }
          Runner.standard.recordRules 0 p.rules)
      (do modify fun m => { m with flow := { m.flow with next := false } }
          Queue.runner.recordRules 0 p.rules) := by
  have clear :=
    steer_primitive (E := StraightEffect) (fun f => { f with
      next := false }) (fun _ => ⟨rfl, rfl, rfl⟩) fun _ => id
  exact mirrored_sequential.bind ((rules_mirrored plain).straight clear)
    fun _ =>
    recordRules_related (rules_mirrored plain) 0 (List.Subset.refl _)

theorem begin_mirrored :
    Mirrored p.table p.SparesNumbers Unit (Runner.standard.begin p)
      (Queue.runner.begin p) :=
  begin_related (rules_mirrored plain) (List.Subset.refl _)

theorem finish_mirrored :
    Mirrored p.table p.SparesNumbers Unit (Runner.standard.finish p)
      (Queue.runner.finish p) :=
  finish_related (rules_mirrored plain) (List.Subset.refl _)

omit plain

theorem takeIn_aloof (text : String) :
    Aloof False Unit (takeIn text) (takeIn text) := by
  have stage : Aloof False Unit (setStage .main) (setStage .main) :=
    aloof_of_primitive (fun _ _ => Move.stays) (setStage_primitive .main)
  have count : Primitive (Still False) Exec.countRecord :=
    .modify (fun m => ⟨.specials _, rfl, nofun⟩) (fun _ => rfl) fun _ _ => rfl
  exact stage.bind fun _ =>
    (aloof_sequential.primitive (Exec.setLine_primitive text)).bind fun _ =>
      aloof_sequential.primitive count

theorem takeIn_numbers {record : String} {m m' : Machine}
    (taken : takeIn record m = .ok () m') : NextNumbers m m' := by
  obtain ⟨⟨⟩, m₁, staged, rest⟩ := Exec.bind_eq_ok.1 taken
  obtain ⟨⟨⟩, m₂, line, count⟩ := Exec.bind_eq_ok.1 rest
  cases staged
  cases count
  have quiet : Keeps (Stays True) (Exec.setLine record) :=
    (Exec.setLine_primitive (C := Still True) record).keeps fun _ _ =>
      Still.stays
  obtain ⟨nr, fnr⟩ := (quiet.of_ok line).numbers trivial
  exact ⟨congrArg (· + Number.one) nr, congrArg (· + Number.one) fnr⟩

include plain

variable {m : Machine} (ready : Ready p.table m)

include ready

/-- The rules do the same with a record that the cursor passes and one that is
taken. -/
theorem record_mirrors {records : Array String} {record : String}
    (cut : m.input.records = some records)
    (next : records[m.input.next]? = some record)
    (going : m.flow.exiting = false) :
    Mirrors (fun m' _ _ => Ready p.table m' ∧ Onward p.SparesNumbers m m' ∧
        m.input.next < m'.input.next)
      (Runner.standard.record p record m.passed)
      (Queue.runner.record p record m.passed.queued) := by
  have still : m.passed.flow.exiting = false := going
  rw [record_eq _ p record still,
    record_eq _ p record (m := m.passed.queued) still]
  obtain ⟨stays, elsewhere⟩ := takeIn_aloof record m.passed
  have same : takeIn record m.passed.queued = _ :=
    elsewhere m.passed.queued.input
  cases taken : takeIn record m.passed with
  | error e m₁ =>
      rw [taken] at same
      rw [Exec.bind_error taken, Exec.bind_error same]
      exact .error
  | ok _ m₁ =>
      rw [taken] at same
      rw [Exec.final_ok taken] at stays
      have queued : m₁.withInput m.passed.queued.input = m₁.queued := by
        change m₁.withInput m.passed.input.queued = m₁.withInput m₁.input.queued
        rw [stays.input]
      rw [Exec.bind_ok taken,
        Exec.bind_ok (same.trans (congrArg (EStateM.Result.ok ()) queued))]
      have ready₁ : Ready p.table m₁ :=
        ⟨stays.functions.trans ready.functions, stays.coherent ready.coherent⟩
      have numbers : NextNumbers m.passed m₁ := takeIn_numbers taken
      have onward : Onward p.SparesNumbers m m₁ :=
        onward_of_passed cut next stays.input fun _ => numbers
      have later := recordRules_mirrored plain m₁ ready₁
      refine later.imp ?_
      rintro m' _ _ - ⟨-, ready', rest⟩
      have passed : m.input.next + 1 = m₁.input.next := by rw [stays.input]; rfl
      exact ⟨ready', trans_of (Onward p.SparesNumbers) onward rest,
        Nat.lt_of_lt_of_le (Nat.le_of_eq passed) rest.next⟩

end Rules

/-! ## What a run accounts for -/

namespace Queue

def Offers (text : String) (i : Input) : Prop :=
  i = { text := some text } ∨ ∃ separator lines,
    Splitter.recordsWith Regex.compile text separator = .ok lines ∧
    i = { text := some text, records := some (lines.drop i.next).toArray,
          next := i.next } ∧ i.next ≤ lines.length

/-- Records are taken off the front of the queue and counted, and nothing else
happens to it. -/
structure Taking (counted : Prop) (q q' : Machine) : Prop where
  absent : q.input = {} → q'.input = {}
  fresh : ∀ text, q.input = { text := some text } → Offers text q'.input
  taken : ∀ records, q.input.records = some records →
    let number := q'.input.next - q.input.next
    number ≤ records.size ∧
    q'.input = { q.input with
      records := some (records.toList.drop number).toArray
      next := q'.input.next }
  next : q.input.next ≤ q'.input.next
  numbers : counted → q'.specials.nr =
    (· + Number.one)^[q'.input.next - q.input.next] q.specials.nr ∧
    q'.specials.fnr = (· + Number.one)^[q'.input.next - q.input.next]
      q.specials.fnr

/-- How the state shows in which way an input was left: nothing is left of it,
the program is exiting, or the rules have just asked for the next input. -/
def Departed (p : Program) (q : Machine) : Departure → Prop
  | .exhausted => q.input.records = some #[]
  | .exit => q.flow.exiting = true
  | .nextFile =>
      ∃ record q₁ q₂, runner.record p record q₁ = .ok () q₂ ∧
        q₂.flow.nextFile = true ∧ q = { q₂ with
          flow := { q₂.flow with nextFile := false } }

def CutAt (text : String) (opened last : Machine) : Prop :=
  opened.input.records = none → ∃ lines,
    Splitter.recordsWith Regex.compile text opened.specials.rs = .ok lines ∧
    last.input.records = some (lines.drop last.input.next).toArray

/-- Between the states of a visit, records of its input are taken; the rules are
given them until the input is left. -/
structure Visit.Accounted (p : Program) (counted : Prop) (v : Visit) :
    Prop where
  attached : v.attached.input = { text := some v.input.text }
  begun : Taking counted v.attached v.opened
  delivered : Taking counted v.opened v.last
  cut : v.opened.flow.exiting = false → CutAt v.input.text v.opened v.last
  departed : Departed p v.last v.departure

def restarted (input : NamedInput) (q : Machine) : Machine :=
  { q with
    specials := { q.specials with fnr := Number.zero }
    input := { text := some input.text } }

/-- From state to state through the inputs behind the first one, up to the last
one or until the program exits. -/
inductive Route (p : Program) (counted : Prop) :
    Machine → List NamedInput → List Visit → Machine → Prop
  | ended (q : Machine) : Route p counted q [] [] q
  | exits {q : Machine} {inputs : List NamedInput}
      (exiting : q.flow.exiting = true) : Route p counted q inputs [] q
  | next {q q' : Machine} {v : Visit} {rest : List NamedInput}
      {visits : List Visit} (going : q.flow.exiting = false)
      (attached : v.attached = restarted v.input q)
      (opened : v.opened = v.attached) (accounted : v.Accounted p counted)
      (later : Route p counted v.last rest visits q') :
      Route p counted q (v.input :: rest) (v :: visits) q'

inductive Account (p : Program) (counted : Prop) (start : Machine) :
    List NamedInput → List Visit → Machine → Prop
  | nothing {q : Machine} (taking : Taking counted start q) :
      Account p counted start [] [] q
  | visits {v : Visit} {rest : List NamedInput} {visits : List Visit}
      {q q' : Machine}
      (attached : v.attached = start.withInput { text := some v.input.text })
      (accounted : v.Accounted p counted)
      (exits : v.opened.flow.exiting = true → v.last = v.opened ∧
        v.departure = .exit) (later : Route p counted v.last rest visits q)
      (taking : Taking counted q q') :
      Account p counted start (v.input :: rest) (v :: visits) q'

end Queue

section Taking

variable {counted : Prop} {m m' : Machine}

theorem queued_of_uncut (uncut : m.input.records = none) : m.queued = m := by
  change m.withInput m.input.queued = m
  rw [Input.queued, uncut]
  change m.withInput { m.input with records := none } = m
  rw [← uncut]
  rfl

theorem Input.Of.offers {text : String} {i : Input} (h : i.Of text) :
    Queue.Offers text i.queued := by
  obtain rfl | ⟨separator, lines, split, attached, cut, inside⟩ := h
  · exact .inl rfl
  · refine .inr ⟨separator, lines, split, ?_, inside⟩
    simp [Input.queued, attached, cut]

theorem Input.Of.attached {text : String} {i : Input} (h : i.Of text) :
    i.text = some text := by
  obtain rfl | ⟨_, _, -, attached, -⟩ := h
  · rfl
  · exact attached

theorem Input.Of.cut {text : String} {found : Option (Array String)}
    (h : m.input.Of text) (coherent : m.regexes.Coherent)
    (uncut : m.input.records = none) (looked : Exec.records m = .ok found m') :
    ∃ lines, Splitter.recordsWith Regex.compile text m.specials.rs = .ok lines ∧
      found = some lines.toArray := by
  obtain ⟨-, absent, -⟩ | ⟨records, -, cut, -⟩ | ⟨text', lines, _, attached, -,
      split, -, given, -⟩ :=
    Exec.records_cases coherent looked
  · rw [h.attached] at absent
    contradiction
  · rw [uncut] at cut
    contradiction
  · obtain rfl : text = text' :=
      Option.some.inj (h.attached.symm.trans attached)
    exact ⟨lines, split, given⟩

/-- Over a cursor that moves forward, records are taken off the queue. -/
theorem Onward.taking (onward : Onward counted m m') :
    Queue.Taking counted m.queued m'.queued where
  absent := by
    intro absent
    have uncut : m.input.records = none := by
      simpa [Machine.queued, Machine.withInput, Input.queued]
        using congrArg Input.records absent
    rw [queued_of_uncut uncut] at absent
    change m'.input.queued = {}
    rw [onward.absent absent]
    rfl
  fresh := by
    intro text fresh
    have uncut : m.input.records = none := by
      simpa [Machine.queued, Machine.withInput, Input.queued]
        using congrArg Input.records fresh
    rw [queued_of_uncut uncut] at fresh
    exact (onward.text text (.inl fresh)).offers
  taken := by
    intro records cut
    obtain ⟨all, here, rfl⟩ := Option.map_eq_some_iff.1 cut
    obtain ⟨same, inside⟩ := onward.cut all here
    have next := onward.next
    constructor
    · change m'.input.next - m.input.next ≤ _
      rw [List.size_toArray, List.length_drop, Array.length_toList]
      omega
    · have text : m'.input.text = m.input.text := by rw [same]
      have cut' : m'.input.records = some all := by rw [same, here]
      simp [Machine.queued, Machine.withInput, Input.queued, text, cut',
        List.drop_drop, Nat.add_sub_cancel' next]
  next := onward.next
  numbers := onward.numbers

end Taking

section Visits

variable {p : Program} {m : Machine} {records : Array String}

theorem drain_of_done (cut : m.input.records = some records)
    (done : m.flow.exiting = true ∨ records.size ≤ m.input.next) (turns : Nat) :
    ∃ departure, Queue.drain p (turns + 1) m.queued = .ok departure m.queued ∧
      Queue.Departed p m.queued departure := by
  unfold Queue.drain
  rw [ifExiting_apply]
  by_cases exits : m.queued.flow.exiting = true
  · rw [if_pos exits]
    exact ⟨.exit, rfl, exits⟩
  · have done : records.size ≤ m.input.next := done.resolve_left exits
    have nothing : records.toList.drop m.input.next = [] := by simpa using done
    rw [if_neg exits]
    refine ⟨.exhausted, Exec.bind_ok (Queue.take_of_done cut done) _, ?_⟩
    simp [Queue.Departed, Machine.queued, Machine.withInput, Input.queued, cut,
      nothing]

section Next

variable {record : String} (going : m.flow.exiting = false)
  (next : records[m.input.next]? = some record)

include going next

theorem recordTurns_of_next (run : Runner) (left : Nat) :
    recordTurns (run.recordTurn p records) (left + 1) m =
      (do run.record p record
          if (← get).flow.nextFile then
            modify fun m => { m with flow := { m.flow with nextFile := false } }
          else recordTurns (run.recordTurn p records) left :
          Exec Unit) m.passed := by
  have turn : run.recordTurn p records m =
      run.takeRecord p record m.passed := by
    rw [recordTurn_apply, next]
    simp [going]
  refine (Exec.bind_at turn _).trans ?_
  unfold Runner.takeRecord
  simp only [bind_assoc]
  refine congrArg (fun k => (run.record p record >>= k) m.passed) ?_
  funext _ m₁
  rw [Exec.get_bind_apply, Exec.get_bind_apply]
  cases m₁.flow.nextFile <;> rfl

theorem drain_of_next (cut : m.input.records = some records) (turns : Nat) :
    Queue.drain p (turns + 1) m.queued =
      (do Queue.runner.record p record
          if (← get).flow.nextFile then
            modify fun m => { m with flow := { m.flow with nextFile := false } }
            return .nextFile
          else Queue.drain p turns : Exec Queue.Departure) m.passed.queued := by
  have still : ¬m.queued.flow.exiting = true := Bool.eq_false_iff.1 going
  conv_lhs => unfold Queue.drain
  rw [ifExiting_apply, if_neg still]
  exact Exec.bind_ok (Queue.take_of_next cut next) _

end Next

variable (plain : p.PlainTargets)

include plain

/-- The turns of the record loop are those of taking records off the queue. -/
theorem drain_mirrors (ready : Ready p.table m)
    (cut : m.input.records = some records) {left turns : Nat}
    (enough : records.size ≤ m.input.next + left)
    (more : records.size ≤ m.input.next + turns) :
    Mirrors (fun m' _ departure => Ready p.table m' ∧
      Onward p.SparesNumbers m m' ∧
        Queue.Departed p m'.queued departure)
      (recordTurns (Runner.standard.recordTurn p records) left m)
      (Queue.drain p (turns + 1) m.queued) := by
  induction left generalizing m turns with
  | zero =>
      obtain ⟨departure, drained, departed⟩ :=
        drain_of_done (p := p) cut (.inr enough) turns
      rw [drained]
      exact .ok ⟨ready, refl_of (Onward p.SparesNumbers) m, departed⟩
  | succ left ih =>
      by_cases done : m.flow.exiting = true ∨ records.size ≤ m.input.next
      · obtain ⟨departure, drained, departed⟩ :=
          drain_of_done (p := p) cut done turns
        have turn : Runner.standard.recordTurn p records m = .ok false m := by
          rcases done with exits | done
          · rw [recordTurn_apply, if_pos exits]
          · exact recordTurn_done done
        rw [drained]
        unfold recordTurns
        rw [Exec.bind_ok turn]
        exact .ok ⟨ready, refl_of (Onward p.SparesNumbers) m, departed⟩
      obtain ⟨going, inside⟩ := not_or.1 done
      obtain ⟨record, next⟩ : ∃ record, records[m.input.next]? = some record :=
        ⟨_, Array.getElem?_eq_getElem (Nat.lt_of_not_le inside)⟩
      have going : m.flow.exiting = false := Bool.eq_false_iff.2 going
      rw [recordTurns_of_next going next, drain_of_next going next cut]
      refine (record_mirrors plain ready cut next going).bind ?_
      rintro ⟨⟩ ⟨⟩ m₁ - recorded ⟨ready₁, onward, further⟩
      obtain ⟨same, -⟩ := onward.cut records cut
      have cut₁ : m₁.input.records = some records := by rw [same, cut]
      rw [Exec.get_bind_apply, Exec.get_bind_apply]
      by_cases leaves : m₁.flow.nextFile = true
      · have leaves' : m₁.queued.flow.nextFile = true := leaves
        rw [if_pos leaves, if_pos leaves']
        let last := { m₁ with flow := { m₁.flow with nextFile := false } }
        refine Mirrors.ok (m := last) ⟨⟨ready₁.functions, ready₁.coherent⟩, ?_,
          ?_⟩
        · exact trans_of (Onward p.SparesNumbers) onward
            (Effect.flow _).stays.onward
        · exact ⟨record, _, _, recorded, leaves, rfl⟩
      · have remains : ¬m₁.queued.flow.nextFile = true := leaves
        obtain ⟨turns, rfl⟩ : ∃ t, turns = t + 1 := ⟨turns - 1, by omega⟩
        rw [if_neg leaves, if_neg remains]
        refine (ih ready₁ cut₁ (by omega) (by omega)).imp ?_
        rintro m₂ _ departure - ⟨ready₂, rest, departed⟩
        exact ⟨ready₂, trans_of (Onward p.SparesNumbers) onward rest, departed⟩

variable {text : String} (ready : Ready p.table m)

include ready

/-- What the rules do with an input over a cursor they do in a visit. -/
theorem visit_mirrors (attached : m.input.Of text) (name : String) :
    Mirrors (fun m' _ departure => Ready p.table m' ∧
      Onward p.SparesNumbers m m' ∧
        Queue.CutAt text m.queued m'.queued ∧
        Queue.Departed p m'.queued departure)
      (Runner.standard.input p name m) (Queue.visit p name m.queued) := by
  let named := { m with specials := { m.specials with filename := name } }
  have stays : Stays p.SparesNumbers m named :=
    ⟨rfl, rfl, rfl, fun _ => ⟨rfl, rfl⟩, id⟩
  change Mirrors _
    ((Exec.records >>= fun found =>
      recordTurns (Runner.standard.recordTurn p (found.getD #[]))
        (found.getD #[]).size) named)
    ((Queue.left >>= fun records =>
      Queue.drain p ((records.getD []).length + 1)) named.queued)
  refine (Queue.left_mirrors named).bind ?_
  rintro found _ m₁ looked - ⟨rfl, cut⟩
  have ready₁ := records_ready (ready.stays stays) looked
  have opened : Onward p.SparesNumbers named m₁ :=
    records_onward ready.coherent looked
  obtain ⟨records, rfl⟩ :=
    Exec.records_some (m := named) attached.attached looked
  refine (drain_mirrors plain ready₁ cut (Nat.le_add_left _ _) ?_).imp ?_
  · rw [Option.map_some, Option.getD_some, List.length_drop,
      Array.length_toList]
    omega
  rintro m' _ departure - ⟨ready', onward, departed⟩
  refine ⟨ready', ?_, fun uncut => ?_, departed⟩
  · exact trans_of (Onward p.SparesNumbers) stays.onward
      (trans_of (Onward p.SparesNumbers) opened onward)
  · have uncut : m.input.records = none := Option.map_eq_none_iff.1 uncut
    obtain ⟨lines, split, given⟩ :=
      attached.cut (m := named) ready.coherent uncut looked
    obtain ⟨same, -⟩ := onward.cut records cut
    have cut' : m'.input.records = some lines.toArray := by
      rw [same, cut, given]
    refine ⟨lines, split, ?_⟩
    simp [Machine.queued, Machine.withInput, Input.queued, cut']

theorem moreVisits_mirrors (inputs : List NamedInput) :
    Mirrors (fun m' _ visits => Ready p.table m' ∧
        Queue.Route p p.SparesNumbers m.queued inputs visits m'.queued)
      (Runner.standard.moreInputs p inputs m)
        (Queue.moreVisits p inputs m.queued) := by
  induction inputs generalizing m with
  | nil => exact .ok ⟨ready, .ended _⟩
  | cons input rest ih =>
      unfold Runner.moreInputs Queue.moreVisits
      rw [ifExiting_apply, ifExiting_apply]
      by_cases exits : m.flow.exiting = true
      · have exits' : m.queued.flow.exiting = true := exits
        rw [if_pos exits, if_pos exits']
        exact .ok ⟨ready, .exits exits⟩
      · have going : ¬m.queued.flow.exiting = true := exits
        rw [if_neg exits, if_neg going]
        let attached := Queue.restarted input m
        have ready₁ : Ready p.table attached :=
          ⟨ready.functions, ready.coherent⟩
        change Mirrors _
          ((Runner.standard.input p input.name >>= fun _ =>
            Runner.standard.moreInputs p rest) attached)
          ((Queue.visit p input.name >>= fun departure => get >>= fun last =>
            Queue.moreVisits p rest >>= fun visits =>
              pure (⟨input, departure, attached.queued, attached.queued,
                last⟩ :: visits))
            attached.queued)
        refine (visit_mirrors plain ready₁ (.inl rfl) input.name).bind ?_
        rintro ⟨⟩ departure m₁ - - ⟨ready₂, onward, cut, departed⟩
        rw [Exec.get_bind_apply]
        let v : Queue.Visit :=
          ⟨input, departure, attached.queued, attached.queued, m₁.queued⟩
        have accounted : v.Accounted p p.SparesNumbers :=
          ⟨rfl, (refl_of (Onward p.SparesNumbers) attached).taking,
            onward.taking, fun _ => cut, departed⟩
        refine (ih ready₂).map (v :: ·) ?_
        rintro m' _ visits ⟨ready', later⟩
        exact ⟨ready',
          .next (v := v) (Bool.eq_false_iff.2 exits) rfl rfl accounted later⟩

theorem ending_mirrors {start : Machine} {v : Queue.Visit}
    (last : v.last = m.queued)
    (attached : v.attached = start.withInput { text := some v.input.text })
    (accounted : v.Accounted p p.SparesNumbers)
    (exits : v.opened.flow.exiting = true → v.last = v.opened ∧
      v.departure = .exit) (rest : List NamedInput) :
    Mirrors (fun m' _ visits =>
        Queue.Account p p.SparesNumbers start (v.input :: rest) visits
          m'.queued)
      ((Runner.standard.moreInputs p rest >>= fun _ => Runner.standard.finish p)
        m)
      ((Queue.moreVisits p rest >>= fun visits =>
        Queue.runner.finish p >>= fun _ => pure (v :: visits)) m.queued) := by
  refine (moreVisits_mirrors plain ready rest).bind ?_
  rintro ⟨⟩ visits m₁ - - ⟨ready₁, later⟩
  refine (finish_mirrored plain m₁ ready₁).map (fun _ => v :: visits) ?_
  rintro m' _ _ ⟨-, -, onward⟩
  rw [← last] at later
  exact .visits attached accounted exits later onward.taking

/-- The inputs and the `END` rules, behind `BEGIN` rules that have taken records
of the first input. -/
theorem inputs_mirrors {start : Machine} {first : NamedInput}
    (begun : Queue.Taking p.SparesNumbers
      (start.withInput { text := some first.text }) m.queued)
    (offered : m.input.Of first.text) (rest : List NamedInput) :
    Mirrors (fun m' _ visits =>
        Queue.Account p p.SparesNumbers start (first :: rest) visits m'.queued)
      ((Runner.standard.inputs p (first :: rest) >>= fun _ =>
        Runner.standard.finish p) m)
      ((do
        let departure ←
          if ← isExiting then pure .exit else Queue.visit p first.name
        let last ← get
        let visits ← Queue.moreVisits p rest
        Queue.runner.finish p
        return ⟨first, departure, start.withInput { text := some first.text },
          m.queued, last⟩ :: visits : Exec (List Queue.Visit)) m.queued) := by
  let attached := start.withInput { text := some first.text }
  rw [ifExiting_apply]
  by_cases exits : m.flow.exiting = true
  · have exits' : m.queued.flow.exiting = true := exits
    have here : Runner.standard.inputs p (first :: rest) m =
        Runner.standard.moreInputs p rest m := by
      rw [inputs_cons_apply, if_pos exits, moreInputs_after exits]
    rw [Exec.bind_at here, if_pos exits']
    let v : Queue.Visit := ⟨first, .exit, attached, m.queued, m.queued⟩
    refine ending_mirrors plain ready (v := v) rfl rfl ⟨rfl, begun, ?_, ?_,
      exits⟩ ?_ rest
    · exact (refl_of (Onward p.SparesNumbers) m).taking
    · intro going
      rw [exits'] at going
      contradiction
    · exact fun _ => ⟨rfl, rfl⟩
  · have going : ¬m.queued.flow.exiting = true := exits
    have here : Runner.standard.inputs p (first :: rest) m =
        (Runner.standard.input p first.name >>= fun _ =>
          Runner.standard.moreInputs p rest) m := by
      rw [inputs_cons_apply, if_neg exits]
    rw [Exec.bind_at here, if_neg going, bind_assoc]
    refine (visit_mirrors plain ready offered first.name).bind ?_
    rintro ⟨⟩ departure last - - ⟨ready', onward, cut, departed⟩
    let v : Queue.Visit :=
      ⟨first, departure, attached, m.queued, last.queued⟩
    refine ending_mirrors plain ready' (v := v) rfl rfl ⟨rfl, begun, ?_, ?_,
      departed⟩ ?_ rest
    · exact onward.taking
    · exact fun _ => cut
    · exact fun exits => absurd exits going

/-- A whole run over cursors is one over queues, with an account of it. -/
theorem program_mirrors (unattached : m.input = {}) (inputs : List NamedInput) :
    Mirrors (fun m' _ visits => Queue.Account p p.SparesNumbers m inputs visits
      m'.queued)
      (runProgram p inputs m) (Queue.program p inputs m) := by
  have start : m.queued = m := queued_of_uncut (by rw [unattached])
  cases inputs with
  | nil =>
      have whole :=
        ((begin_mirrored plain).bind fun _ => finish_mirrored plain) m ready
      rw [start] at whole
      have named :=
        whole.map (fun _ => ([] : List Queue.Visit))
          (S := fun m' _ visits => Queue.Account p p.SparesNumbers m
            [] visits m'.queued) ?_
      · rw [bind_assoc] at named
        exact named
      · rintro m' _ _ ⟨-, -, onward⟩
        have taking := onward.taking
        rw [start] at taking
        exact .nothing taking
  | cons first rest =>
      let attached := m.withInput { text := some first.text }
      have ready₁ : Ready p.table attached := ⟨ready.functions, ready.coherent⟩
      have fresh : attached.queued = attached := queued_of_uncut rfl
      change Mirrors _
        ((Runner.standard.begin p >>= fun _ =>
          Runner.standard.inputs p (first :: rest) >>= fun _ =>
            Runner.standard.finish p) attached)
        ((Queue.runner.begin p >>= fun _ => get >>= fun opened => _) attached)
      rw [← fresh]
      refine (begin_mirrored plain attached ready₁).bind ?_
      rintro ⟨⟩ ⟨⟩ opened - - ⟨-, ready₂, begun⟩
      have taking := begun.taking
      rw [fresh] at taking
      have offered := begun.text first.text (.inl rfl)
      rw [Exec.get_bind_apply]
      exact inputs_mirrors plain ready₂ taking offered rest

end Visits

/-! ## Runs -/

theorem useOptions_stays (options : Options) :
    Keeps (Stays False) (useOptions options) := by
  have assign : ∀ presets, Primitive (Still False) (assignAll presets) := by
    intro presets
    induction presets with
    | nil => exact .pure ()
    | cons preset rest ih =>
        exact (writable_of_spares (l := .variable preset.1) nofun _).bind
          fun _ => ih
  have separators : Primitive (Still False)
      (modify fun m => { m with specials := options.specials m.specials }) :=
    .modify (fun m => ⟨.specials _, rfl, nofun⟩) (fun _ => rfl) fun _ _ => rfl
  exact (separators.bind fun _ => assign options.presets.entries).keeps
    fun _ _ => Still.stays

def prepare (p : Program) (options : Options) : Exec Unit := do
  useOptions options
  load p
  reserveFrames

theorem ready_of_prepared {p : Program} {options : Options} {host : Host}
    {start : Machine}
    (prepared : prepare p options (startMachine options host) = .ok () start) :
    Ready p.table start ∧ start.input = {} := by
  obtain ⟨⟨⟩, m₁, used, rest⟩ := Exec.bind_eq_ok.1 prepared
  obtain ⟨⟨⟩, m₂, loaded, reserved⟩ := Exec.bind_eq_ok.1 rest
  have stays := (useOptions_stays options).of_ok used
  have functions : m₁.functions = {} := stays.functions
  obtain rfl : m₂ = start := reserveFrames_keeps.of_ok (R := Eq) reserved
  cases loaded
  refine ⟨⟨?_, stays.coherent Regex.Cache.coherent_empty⟩, stays.input⟩
  simp only [Program.table, functions]

theorem loaded_mirrors {p : Program} (plain : p.PlainTargets)
    (inputs : List NamedInput) (options : Options) (host : Host) :
    Mirrors (fun m _ visits => ∃ start,
        prepare p options (startMachine options host) = .ok () start ∧
        Queue.Account p p.SparesNumbers start inputs visits m.queued)
      (runLoaded p inputs options (startMachine options host))
      (Queue.loaded p inputs options (startMachine options host)) := by
  have cursors : runLoaded p inputs options = prepare p options >>= fun _ =>
    runProgram p inputs := by
    simp only [prepare, bind_assoc]
    rfl
  have queues : Queue.loaded p inputs options = prepare p options >>= fun _ =>
    Queue.program p inputs := by
    simp only [prepare, bind_assoc]
    rfl
  rw [cursors, queues]
  cases prepared : prepare p options (startMachine options host) with
  | error e m =>
      rw [Exec.bind_error prepared, Exec.bind_error prepared]
      exact .error
  | ok _ start =>
      obtain ⟨ready, unattached⟩ := ready_of_prepared prepared
      rw [Exec.bind_ok prepared, Exec.bind_ok prepared]
      refine (program_mirrors plain ready unattached inputs).imp ?_
      intro m _ visits _ account
      exact ⟨start, rfl, account⟩

/-- If every `getline` has a target without `getline` and without calls, then a
run is one over queues: with the same fault, or with the same state but for the
queue, and with an account of its inputs.  The first time that a record is taken
off a queue, the input is cut with the separator of that moment; from then on
the records of this cut are taken in order, one after the other. -/
theorem records_delivered_once {p : Program} (plain : p.PlainTargets) :
    (∀ (inputs : List NamedInput) (options : Options) (host : Host),
      match runLoaded p inputs options (startMachine options host) with
      | .error e _ =>
          ∃ q, Queue.loaded p inputs options (startMachine options host) =
            .error e q
      | .ok _ m =>
          ∃ start visits, prepare p options (startMachine options host) =
            .ok () start ∧
            Queue.loaded p inputs options (startMachine options host) =
              .ok visits m.queued ∧
            Queue.Account p p.SparesNumbers start inputs visits m.queued) ∧
    (∀ (q : Machine) (text : String), q.regexes.Coherent →
      q.input = { text := some text } →
      ∀ r q', Queue.take q = .ok r q' →
        ∃ lines, Splitter.recordsWith Regex.compile text q.specials.rs =
          .ok lines ∧
          Queue.Took lines 0 r q'.input) ∧
    ∀ (q : Machine) (lines : List String),
      q.input.records = some (lines.drop q.input.next).toArray →
        ∃ r input, Queue.take q = .ok r (q.withInput input) ∧
          Queue.Took lines q.input.next r input := by
  refine ⟨?_, ?_, ?_⟩
  · intro inputs options host
    have mirrors := loaded_mirrors plain inputs options host
    generalize Queue.loaded p inputs options (startMachine options host) = r
      at mirrors ⊢
    generalize runLoaded p inputs options (startMachine options host) = r'
      at mirrors ⊢
    cases mirrors with
    | ok related =>
        obtain ⟨start, prepared, account⟩ := related
        exact ⟨start, _, prepared, rfl, account⟩
    | error => exact ⟨_, rfl⟩
  · intro q text coherent fresh r q' taken
    exact Queue.take_first coherent fresh taken
  · intro q lines cut
    exact Queue.take_later cut

/-- The `BEGIN` rule and the rule for records read on with `getline`, over two
inputs, which are both exhausted. -/
theorem two_inputs_delivered_once :
    let line (name : String) : Expr := .getline (some (.variable name)) none
    let values := ["NR", "FNR", "x", "y"].map fun name =>
      Expr.read (.variable name)
    let p : Program :=
      ⟨[⟨.begin, [.expr (line "x")]⟩,
        ⟨.always, [.expr (line "y"), .print values none]⟩], []⟩
    let inputs : List NamedInput := [⟨"a", "1\n2\n3\n"⟩, ⟨"b", "4\n5\n"⟩]
    let m := (runLoaded p inputs {}).final (startMachine {} {})
    p.PlainTargets ∧ m.output.text = "3 3 1 3\n5 2 1 5\n" ∧
    ∃ start visits, prepare p {} (startMachine {} {}) = .ok () start ∧
    Queue.loaded p inputs {} (startMachine {} {}) = .ok visits m.queued ∧
    visits.map (fun v => (v.departure, v.opened.input.next,
      v.last.input.next)) = [(.exhausted, 1, 3), (.exhausted, 0, 2)] ∧
    Queue.Account p p.SparesNumbers start inputs visits m.queued := by
  intro line values p inputs m
  have plain : p.PlainTargets := by decide +kernel
  have ran : runLoaded p inputs {} (startMachine {} {}) = .ok () m :=
    Exec.eq_ok_of_value? (by decide +kernel)
  have delivered := (records_delivered_once plain).1 inputs {} {}
  rw [ran] at delivered
  obtain ⟨start, visits, prepared, same, account⟩ := delivered
  refine ⟨plain, by decide +kernel, start, visits, prepared, same, ?_, account⟩
  have seen : ((Queue.loaded p inputs {}).value? (startMachine {} {})).map
      (·.map fun v => (v.departure, v.opened.input.next, v.last.input.next)) =
      some [(.exhausted, 1, 3), (.exhausted, 0, 2)] := by decide +kernel
  rw [Exec.value?, same] at seen
  exact Option.some.inj seen

end Awk
