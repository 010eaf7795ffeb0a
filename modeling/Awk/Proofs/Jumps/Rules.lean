import Awk.Proofs.Jumps.Statement

/-!
# Rules and the jumps of other rules

Nothing removes the mark of a jump between two rules.  So rules are kept apart
if no action makes a jump out of itself: then every action starts and ends
without a mark, and its statements are passed over only after `exit`, `next` or
`nextfile`.  What these two have skipped is over with the record, with the input
and when the `END` rules start.
-/

namespace Awk

open Exec (Keeps)

def Program.Confined (p : Program) : Prop :=
  ∀ r ∈ p.rules, Stmt.jumpsAll r.action = {}

theorem execAll_staysCalm {action : List Stmt}
    (confined : Stmt.jumpsAll action = {}) (run : BodyRunner) :
    Keeps StaysCalm (Stmt.execAll (.limited run) action) := by
  intro m calm
  have leaves : Leaves (fun _ f => f.Within (Stmt.jumpsAll action))
      (Stmt.execAll (.limited run) action) :=
    Stmt.execAll_leaves action
  rw [confined] at leaves
  have marks := leaves m calm
  cases result : Stmt.execAll (.limited run) action m with
  | ok a m' =>
      rw [result] at marks
      rw [Exec.final_ok result]
      exact marks.calm
  | error e m' =>
      rw [result] at marks
      rw [Exec.final_error result]
      exact marks

namespace Program.Confined

variable {p : Program} (h : p.Confined)

include h

theorem inputWise :
    InputWise (Along.Kept StaysCalm) p.rules .standard .standard where
  toSequential := staysCalm_sequential
  test := fun e parts => isTrue_related (staysCalm_straight runFunction) e parts
  action := fun r rule => execAll_staysCalm (h r rule) runFunction
  straight := (staysCalm_straight runFunction).straight
  move := Primitive.keeps fun m m' step => by cases step <;> exact id
  shift := Primitive.keeps fun m m' step => by cases step <;> exact id
  recordLoop := fun count _ _ turn =>
    recordTurns_related staysCalm_sequential turn count

theorem runLoaded_staysCalm (inputs : List NamedInput) (options : Options) :
    Keeps StaysCalm (runLoaded p inputs options) := by
  have used : Keeps StaysCalm (useOptions options) :=
    staysCalm_sequential.primitive (useOptions_primitive options)
  have loaded : Keeps StaysCalm (load p) := fun _ => id
  exact used.bind fun _ => loaded.bind fun _ =>
    reserveFrames_keeps.bind fun _ =>
    h.inputWise.program_related inputs

end Program.Confined

/-! ## Records that are skipped -/

def SameFlow (m m' : Machine) : Prop := m'.flow = m.flow

instance : IsPreorder Machine SameFlow where
  refl _ := rfl
  trans _ _ _ h₁ h₂ := h₂.trans h₁

def takeIn (text : String) : Exec Unit := do
  setStage .main
  Exec.setLine text
  Exec.countRecord

theorem takeIn_sameFlow (text : String) : Keeps SameFlow (takeIn text) := by
  have stage : Keeps SameFlow (setStage .main) := fun _ => rfl
  have line : Keeps SameFlow (Exec.setLine text) :=
    (Exec.setLine_primitive (C := Change) text).keeps fun m m' step => by
      cases step <;> rfl
  have count : Keeps SameFlow Exec.countRecord := fun _ => rfl
  exact stage.bind fun _ => line.bind fun _ => count

theorem record_eq (run : Runner) (p : Program) (text : String) {m : Machine}
    (going : m.flow.exiting = false) :
    run.record p text m =
      (do
        takeIn text
        modify fun m => { m with flow := { m.flow with next := false } }
        run.recordRules 0 p.rules : Exec Unit) m := by
  change (if m.flow.exiting = true then _ else _ : Exec Unit) m = _
  rw [if_neg (Bool.eq_false_iff.1 going)]
  simp only [takeIn, bind_assoc]

theorem record_apply (p : Program) (text : String) {m : Machine}
    (going : m.flow.exiting = false) :
    (∃ m₁, m₁.flow = { m.flow with next := false } ∧
      runRecord p text m = Runner.standard.recordRules 0 p.rules m₁) ∨
    ∃ e m₁, takeIn text m = .error e m₁ ∧ runRecord p text m = .error e m₁ := by
  have same := takeIn_sameFlow text m
  unfold runRecord
  rw [record_eq .standard p text going]
  cases result : takeIn text m with
  | ok a m' =>
      rw [Exec.final_ok result] at same
      refine .inl ⟨{ m' with flow := { m'.flow with next := false } }, ?_,
        Exec.bind_ok result _⟩
      rw [same]
  | error e m' => exact .inr ⟨e, m', rfl, Exec.bind_error result _⟩

theorem takeRecord_nextFile {p : Program} {text : String} {again : Bool}
    {m m' : Machine}
    (taken : Runner.standard.takeRecord p text m = .ok again m') :
    m'.flow.nextFile = false := by
  obtain ⟨⟨⟩, m₁, -, rest⟩ := Exec.bind_eq_ok.1 taken
  change (if m₁.flow.nextFile = true then _ else _ : Exec Bool) m₁ = _ at rest
  cases skipped : m₁.flow.nextFile with
  | true =>
      rw [if_pos skipped] at rest
      cases rest
      rfl
  | false =>
      rw [if_neg (Bool.eq_false_iff.1 skipped)] at rest
      cases rest
      exact skipped

/-- From a state without marks, an action leaves at most the marks of the jumps
out of it, and as long as there is one, actions do nothing.  If no action of a
program jumps out of itself, there are no marks: not when a run ends, and not
after an action, a pattern or any part of the rules that starts without them, so
that statements are passed over only because of `exit`, `next` or `nextfile`.
The rules for a record start without `next`, the next record comes without
`nextfile`, and the `END` rules start without either. -/
theorem confined_rules_isolated (p : Program) :
    (∀ r ∈ p.rules, ∀ m,
      (m.flow.Calm → ∀ m', execute r.action m = .ok () m' →
        m'.flow.Within (Stmt.jumpsAll r.action)) ∧
      (¬m.flow.Calm → execute r.action m = .ok () m)) ∧
    (p.Confined →
      (∀ inputs options host,
        ((runLoaded p inputs options).final
          (startMachine options host)).flow.Calm) ∧
      ∀ m, m.flow.Calm →
        m.flow.interrupted = (m.flow.exiting || m.flow.next ||
          m.flow.nextFile) ∧
        (∀ r ∈ p.rules, ((execute r.action).final m).flow.Calm ∧
          ∀ index, ((r.trigger.holds .standard index).final m).flow.Calm) ∧
        (∀ part, part ⊆ p.rules →
          ((Runner.standard.beginRules part).final m).flow.Calm ∧
          (∀ index,
            ((Runner.standard.recordRules index part).final m).flow.Calm) ∧
          ((Runner.standard.endRules part).final m).flow.Calm) ∧
        (∀ text, ((runRecord p text).final m).flow.Calm ∧
          (m.flow.exiting = false →
            (∃ m₁, m₁.flow = { m.flow with next := false } ∧
              runRecord p text m = Runner.standard.recordRules 0 p.rules m₁) ∨
            ∃ e m₁, takeIn text m = .error e m₁ ∧
            runRecord p text m = .error e m₁) ∧
          ∀ again m', Runner.standard.takeRecord p text m = .ok again m' →
          m'.flow.nextFile = false) ∧
        ∃ m₁, (m₁.flow.Calm ∧ m₁.flow.next = false ∧ m₁.flow.nextFile = false) ∧
          runEnd p m =
            (do Runner.standard.endRules p.rules; setStage .done : Exec Unit)
            m₁) := by
  constructor
  · intro r _ m
    constructor
    · intro calm m' executed
      have leaves :
          Leaves (fun _ f => f.Within (Stmt.jumpsAll r.action))
            (execute r.action) :=
        Stmt.execAll_leaves r.action
      have marks := leaves m calm
      rw [executed] at marks
      exact marks
    · intro jumping
      exact Stmt.execAll_of_interrupted _ r.action
        (Flow.interrupted_of_not_calm jumping)
  · intro confined
    have rules := confined.inputWise.toRuleWise
    refine ⟨?_, fun m calm => ⟨calm.interrupted, ?_, ?_, ?_, ?_⟩⟩
    · intro inputs options host
      exact confined.runLoaded_staysCalm inputs options _ ⟨rfl, rfl, rfl⟩
    · intro r rule
      exact ⟨rules.action r rule m calm,
        fun index => Trigger.holds_related rules index r.trigger m calm⟩
    · intro part inside
      exact ⟨beginRules_related rules inside m calm,
        fun index => recordRules_related rules index inside m calm,
        endRules_related rules inside m calm⟩
    · intro text
      exact ⟨record_related rules (List.Subset.refl _) text m calm,
        record_apply p text, fun _ _ => takeRecord_nextFile⟩
    · refine ⟨{ m with stage := .finish, flow := m.flow.atEnd }, ⟨?_, rfl, rfl⟩,
        rfl⟩
      exact ⟨calm.breaking, calm.continuing, calm.returning⟩

/-- A `break` in a loop, and one in a function that is outside of loops. -/
theorem rule_after_confined_breaks :
    let f : Function := ⟨"f", [], [.breakLoop]⟩
    let p : Program :=
      ⟨[⟨.begin,
        [.whileLoop (.string "x") (.block [.expr (.call "f" []), .breakLoop])]⟩,
        ⟨.begin, [.print [.string "b"] none]⟩], [f]⟩
    let m := (runLoaded p [] {}).final (startMachine {} {})
    p.Confined ∧ m.flow.Calm ∧ m.output.text = "b\n" := by
  intro f p m
  have confined : p.Confined := by
    intro r rule
    simp only [p, List.mem_cons, List.not_mem_nil, or_false] at rule
    rcases rule with rfl | rfl <;> rfl
  obtain ⟨runs, -⟩ := (confined_rules_isolated p).2 confined
  exact ⟨confined, runs [] {} {}, by decide +kernel⟩

/-- A `break` outside of loops in the action for a record: the `END` rule does
not print. -/
theorem end_rule_lost_after_break :
    let p : Program :=
      ⟨[⟨.always, [.breakLoop]⟩, ⟨.finish, [.print [.string "end"] none]⟩], []⟩
    let m := (runLoaded p [⟨"", "a\n"⟩] {}).final (startMachine {} {})
    m.flow.breaking = true ∧ m.output.text = "" := by
  decide +kernel

end Awk
