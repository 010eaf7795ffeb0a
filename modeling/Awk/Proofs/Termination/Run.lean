import Awk.Proofs.Termination.Stepping

/-!
# Every run comes to an end

A nest of calls ends because the depth of calls grows up to its limit, a loop
because its count does, and a pass over records because the cursor of the input
moves on with every record, also when `getline` reads some of them.  So from
some number of steps on, a stepping runner does what the standard runner does,
and is never cut off.
-/

namespace Awk

variable {limits : Limits} {depth steps : Nat} {cutoff : Exec Unit}

/-! ## Statements and rules -/

theorem agree_looping {run₁ run₂ : BodyRunner}
    (enough : limits.iterations.toNat < steps)
    (hrun : (depth : Int) + 1 ≤ limits.calls → ∀ f,
      Agree limits (depth + 1) Unit (run₁ f) (run₂ f)) :
    Looping (Agree limits depth) (.limited run₁) (.counting cutoff steps run₂)
      where
  toSequential := agree_sequential
  nextRecord := fun _ _ => readNextRecord_agree
  nextLine := fun _ => readNextLine_related agree_sequential fun _ m _ _ =>
    ⟨rfl, refl_of Steady m⟩
  call := fun _ other args =>
    callByName_related agree_sequential (fun f =>
      callFunction_agree (fun room => hrun room f) args) other
  straight := agree_of_primitive fun _ _ => Effect.steady
  whole := by
    intro e h
    refine Agree.get_bind fun m start deep => ?_
    split
    · exact h m start deep
    · exact ⟨rfl, refl_of Steady m⟩
  whileLoop := by
    intro kind _ _ _ _ test turn m start deep
    subst start
    exact (whileSteps_agree test turn (Nat.zero_add _).symm enough m rfl
      deep).left rfl
  doLoop := by
    intro _ _ _ _ test turn m start deep
    subst start
    exact (doSteps_agree test turn (Nat.zero_add _).symm enough m rfl deep).left
      rfl
  keyLoop := by
    intro id name _ _ keys _ turn m start deep
    subst start
    exact (keySteps_agree id name turn keys (Nat.zero_add _).symm m rfl
      deep).left rfl

theorem bodySteps_agree (enough : limits.iterations.toNat < steps)
    {left left' : Nat} (hleft : left ≤ left')
    (total : limits.calls ≤ left + depth)
    (room : (depth : Int) + 1 ≤ limits.calls) (f : Function) :
    Agree limits (depth + 1) Unit (runBody left f)
      (bodySteps cutoff steps left' f) := by
  -- The bodies that may still nest and the depth of calls add up to the limit.
  induction left generalizing left' depth f with
  | zero => omega
  | succ left ih =>
      obtain ⟨left', rfl⟩ : ∃ n, left' = n + 1 := ⟨left' - 1, by omega⟩
      refine Stmt.execAll_related (agree_looping enough fun room' f => ?_)
        f.body fun _ _ => trivial
      exact ih (by omega) (by omega) room' f

theorem agree_running (iterations : limits.iterations.toNat < steps)
    (calls : limits.calls.toNat ≤ steps) :
    Running (Agree limits 0) .standard (.stepping cutoff steps) where
  toLooping := by
    refine agree_looping iterations fun room f m start deep => ?_
    subst start
    exact (bodySteps_agree iterations calls (by omega) room f m rfl deep).left
      rfl
  move := agree_of_primitive fun _ _ => Move.steady

/-! ## Records -/

def Machine.passed (m : Machine) : Machine :=
  { m with input := { m.input with next := m.input.next + 1 } }

theorem recordTurn_apply (run : Runner) (p : Program) (records : Array String)
    (m : Machine) :
    run.recordTurn p records m =
      if m.flow.exiting then .ok false m
      else
        match records[m.input.next]? with
        | none => .ok false m
        | some text => run.takeRecord p text m.passed := by
  change (ite (m.flow.exiting = true) (_ : Exec Bool) _) m = _
  split
  · rfl
  · change (match records[m.input.next]? with
      | none => pure false
      | some text =>
          Exec.setNextRecord (m.input.next + 1) >>= fun _ =>
            run.takeRecord p text
      : Exec Bool) m = _
    cases records[m.input.next]? <;> rfl

theorem recordTurn_done {run : Runner} {p : Program} {records : Array String}
    {m : Machine} (done : records.size ≤ m.input.next) :
    run.recordTurn p records m = .ok false m := by
  rw [recordTurn_apply, Array.getElem?_eq_none done]
  split <;> rfl

section Records

variable {run : Runner} {p : Program} {records : Array String}

theorem recordTurn_agree (records : Array String)
    (take : ∀ text, Agree limits 0 Bool (Runner.standard.takeRecord p text)
      (run.takeRecord p text)) {m : Machine} (start : m.limits = limits) :
    AgreeAt (Runner.standard.recordTurn p records)
      (run.recordTurn p records) m ∧
      ∀ m', Runner.standard.recordTurn p records m = .ok true m' →
      m.input.next < m'.input.next := by
  cases exits : m.flow.exiting with
  | true =>
      have stop : ∀ run : Runner, run.recordTurn p records m = .ok false m := by
        intro run
        rw [recordTurn_apply, exits]
        rfl
      refine ⟨.of_eq (stop _) (stop _) (refl_of Steady m), fun m' h => ?_⟩
      rw [stop] at h
      cases h
  | false =>
      cases found : records[m.input.next]? with
      | none =>
          have stop : ∀ run : Runner, run.recordTurn p records m =
              .ok false m :=
            fun _ => recordTurn_done (Array.getElem?_eq_none_iff.1 found)
          refine ⟨.of_eq (stop _) (stop _) (refl_of Steady m), fun m' h => ?_⟩
          rw [stop] at h
          cases h
      | some text =>
          have taken : ∀ run : Runner, run.recordTurn p records m =
              run.takeRecord p text m.passed := by
            intro run
            rw [recordTurn_apply, exits, found]
            rfl
          obtain ⟨same, steady⟩ := take text m.passed start (Nat.zero_le _)
          have further :
              m.input.next <
                ((Runner.standard.takeRecord p text).final
                  m.passed).input.next :=
            steady.cursor
          refine ⟨.of_eq (taken _) ((taken _).trans same.symm) ?_,
            fun m' h => ?_⟩
          · exact ⟨steady.limits, steady.depth, Nat.le_of_lt further⟩
          · rw [taken] at h
            rwa [Exec.final_ok h] at further

theorem recordSteps_agree
    (take : ∀ text, Agree limits 0 Bool (Runner.standard.takeRecord p text)
      (run.takeRecord p text)) {left steps : Nat} {m : Machine}
    (start : m.limits = limits) (behind : records.size ≤ m.input.next + left)
      (enough : left < steps) :
    AgreeAt (recordTurns (Runner.standard.recordTurn p records) left)
      (recordSteps cutoff (run.recordTurn p records) steps) m := by
  -- The records behind the cursor are no more than the turns that are left.
  induction left generalizing steps m with
  | zero =>
      obtain ⟨steps, rfl⟩ : ∃ n, steps = n + 1 := ⟨steps - 1, by omega⟩
      exact .of_eq rfl (Exec.bind_ok (recordTurn_done behind) _)
        (refl_of Steady m)
  | succ left ih =>
      obtain ⟨steps, rfl⟩ : ∃ n, steps = n + 1 := ⟨steps - 1, by omega⟩
      obtain ⟨⟨same, steady⟩, further⟩ := recordTurn_agree records take start
      cases turn : Runner.standard.recordTurn p records m with
      | error e m' =>
          rw [Exec.final_error turn] at steady
          exact .of_eq (Exec.bind_error turn _)
            (Exec.bind_error (same.symm.trans turn) _) steady
      | ok again m' =>
          rw [Exec.final_ok turn] at steady
          cases again with
          | false =>
              exact .of_eq (Exec.bind_ok turn _)
                (Exec.bind_ok (same.symm.trans turn) _) steady
          | true =>
              have passed := further m' turn
              have rest :
                  AgreeAt _ (recordSteps cutoff (run.recordTurn p records)
                    steps) m' :=
                ih (steady.limits.trans start) (by omega) (by omega)
              refine .of_eq (Exec.bind_ok turn _) ?_
                (trans_of Steady steady rest.steady)
              exact (Exec.bind_ok (same.symm.trans turn) _).trans rest.same.symm

end Records

/-! ## Whole runs -/

/-- From every state with the given limits some number of steps is enough,
whatever is done where they end. -/
def Settles (limits : Limits) {α : Type} (x : Exec α)
    (y : Exec Unit → Nat → Exec α) : Prop :=
  ∀ m, m.limits = limits → (x.final m).limits = limits ∧
    ∃ enough, ∀ steps ≥ enough, ∀ cutoff, y cutoff steps m = x m

section Settles

variable {α β : Type} {x : Exec α} {y : Exec Unit → Nat → Exec α}

theorem Settles.bind {f : α → Exec β} {g : Exec Unit → Nat → α → Exec β}
    (hx : Settles limits x y)
    (hf : ∀ a, Settles limits (f a) fun cutoff steps => g cutoff steps a) :
    Settles limits (x >>= f) fun cutoff steps =>
      y cutoff steps >>= g cutoff steps := by
  intro m start
  obtain ⟨kept, enough, same⟩ := hx m start
  cases h : x m with
  | error e m' =>
      rw [Exec.final_error h] at kept
      rw [Exec.final_error (Exec.bind_error h f)]
      refine ⟨kept, enough, fun steps more cutoff => ?_⟩
      have h' := (same steps more cutoff).trans h
      exact (Exec.bind_error h' _).trans (Exec.bind_error h f).symm
  | ok a m' =>
      rw [Exec.final_ok h] at kept
      obtain ⟨kept', enough', same'⟩ := hf a m' kept
      refine ⟨?_, max enough enough', fun steps more cutoff => ?_⟩
      · unfold Exec.final
        rw [Exec.bind_ok h]
        exact kept'
      · have h' := (same steps (by omega) cutoff).trans h
        rw [Exec.bind_ok h]
        exact (Exec.bind_ok h' _).trans (same' steps (by omega) cutoff)

theorem settles_of_agree (h : ∀ cutoff steps, limits.iterations.toNat < steps →
    limits.calls.toNat ≤ steps → Agree limits 0 α x (y cutoff steps)) :
    Settles limits x y := by
  intro m start
  let enough := limits.iterations.toNat + 1 + limits.calls.toNat
  have agrees : ∀ cutoff steps, enough ≤ steps →
      AgreeAt x (y cutoff steps) m := by
    intro cutoff steps more
    exact h cutoff steps (by omega) (by omega) m start (Nat.zero_le _)
  refine ⟨?_, enough, fun steps more cutoff =>
    (agrees cutoff steps more).same.symm⟩
  exact (agrees (pure ()) enough (Nat.le_refl _)).steady.limits.trans start

theorem settles_of_kept (h : ∀ m, (x.final m).limits = m.limits) :
    Settles limits x fun _ _ => x :=
  fun m start => ⟨(h m).trans start, 0, fun _ _ _ => rfl⟩

theorem settles_of_primitive (hx : Primitive Change x) :
    Settles limits x fun _ _ => x :=
  settles_of_kept fun m => (hx.keeps (fun _ _ => Change.steady) m).limits

theorem reserveFrames_limits (m : Machine) :
    (reserveFrames.final m).limits = m.limits := by
  unfold Exec.final
  rw [reserveFrames_apply]
  split <;> rfl

theorem settles_unlessExiting {x : Exec Unit} {y : Exec Unit → Nat → Exec Unit}
    (h : Settles limits x y) :
    Settles limits (do if ← isExiting then return else x)
      fun cutoff steps =>
        (do if ← isExiting then return else y cutoff steps) := by
  refine Settles.bind (settles_of_kept fun _ => rfl) fun b => ?_
  cases b with
  | true => exact settles_of_kept fun _ => rfl
  | false => exact h

end Settles

section Inputs

variable (p : Program)

theorem input_settles (name : String) :
    Settles limits (Runner.standard.input p name) fun cutoff steps =>
      (Runner.stepping cutoff steps).input p name := by
  have file := Exec.setSpecials_primitive fun s => { s with filename := name }
  refine Settles.bind (settles_of_primitive file) fun _ => ?_
  refine Settles.bind (settles_of_primitive Exec.records_primitive)
    fun records => ?_
  intro m start
  let count := (records.getD #[]).size
  let enough := limits.iterations.toNat + limits.calls.toNat + count + 1
  have agrees : ∀ cutoff steps, enough ≤ steps →
      AgreeAt
        (recordTurns (Runner.standard.recordTurn p (records.getD #[])) count)
        (recordSteps cutoff
          ((Runner.stepping cutoff steps).recordTurn p (records.getD #[]))
          steps) m := by
    intro cutoff steps more
    have running : Running (Agree limits 0) .standard
        (.stepping cutoff steps) :=
      agree_running (by omega) (by omega)
    have take :=
      takeRecord_related (running.ruleWise p.rules) (List.Subset.refl _)
    exact recordSteps_agree take start (Nat.le_add_left _ _) (by omega)
  refine ⟨?_, enough, fun steps more cutoff =>
    (agrees cutoff steps more).same.symm⟩
  exact (agrees (pure ()) enough (Nat.le_refl _)).steady.limits.trans start

theorem moreInputs_settles (inputs : List NamedInput) :
    Settles limits (Runner.standard.moreInputs p inputs)
      fun cutoff steps =>
        (Runner.stepping cutoff steps).moreInputs p inputs := by
  induction inputs with
  | nil => exact settles_of_kept fun _ => rfl
  | cons input rest ih =>
      refine settles_unlessExiting ?_
      refine Settles.bind (settles_of_kept fun _ => rfl) fun _ => ?_
      refine Settles.bind (settles_of_kept fun _ => rfl) fun _ => ?_
      exact Settles.bind (input_settles p input.name) fun _ => ih

theorem inputs_settle (inputs : List NamedInput) :
    Settles limits (Runner.standard.inputs p inputs)
      fun cutoff steps => (Runner.stepping cutoff steps).inputs p inputs := by
  cases inputs with
  | nil => exact settles_of_kept fun _ => rfl
  | cons first rest =>
      refine settles_unlessExiting ?_
      exact Settles.bind (input_settles p first.name) fun _ =>
        moreInputs_settles p rest

theorem program_settles (inputs : List NamedInput) :
    Settles limits (Runner.standard.program p inputs)
      fun cutoff steps => (Runner.stepping cutoff steps).program p inputs := by
  have begins : Settles limits (Runner.standard.begin p) fun cutoff steps =>
    (Runner.stepping cutoff steps).begin p :=
    settles_of_agree fun _ _ iterations calls =>
      begin_related ((agree_running iterations calls).ruleWise p.rules)
        (List.Subset.refl _)
  have ends : Settles limits (Runner.standard.finish p) fun cutoff steps =>
    (Runner.stepping cutoff steps).finish p :=
    settles_of_agree fun _ _ iterations calls =>
      finish_related ((agree_running iterations calls).ruleWise p.rules)
        (List.Subset.refl _)
  have rules := begins.bind fun _ => (inputs_settle p inputs).bind fun _ => ends
  cases inputs with
  | nil => exact rules
  | cons first rest =>
      exact Settles.bind (settles_of_kept fun _ => rfl) fun _ => rules

end Inputs

/-- Loops, recursive functions and the passes over the records of the inputs
come to an end, for every program, whatever the limits are: from some number of
steps on, a run that takes them as they are written has the outcome of the
standard one, and it does not matter what would happen to it where the steps are
used up. -/
theorem run_terminates (p : Program) (inputs : List NamedInput)
    (options : Options) (host : Host) :
    ∃ enough, ∀ steps ≥ enough, ∀ cutoff,
      (Runner.stepping cutoff steps).loaded p inputs options
        (startMachine options host) =
        runLoaded p inputs options (startMachine options host) := by
  have whole : Settles ⟨options.maxIterations,
      options.maxCalls⟩ (Runner.standard.loaded p inputs options)
      fun cutoff steps =>
        (Runner.stepping cutoff steps).loaded p inputs options := by
    refine Settles.bind (settles_of_primitive (useOptions_primitive options))
      fun _ => ?_
    refine Settles.bind (settles_of_kept fun _ => rfl) fun _ => ?_
    refine Settles.bind (settles_of_kept reserveFrames_limits) fun _ => ?_
    exact program_settles p inputs
  exact (whole (startMachine options host) rfl).2

/-- For a loop without end and a limit of one turn, two steps are enough and one
is not. -/
example :
    let p : Program :=
      ⟨[⟨.begin, [.whileLoop (.string "x") (.print [.string "b"] none)]⟩], []⟩
    let options : Options := { maxIterations := 1 }
    let written (steps : Nat) : String :=
      (((Runner.stepping (Exec.emit "cut") steps).loaded p [] options).final
        (startMachine options {})).output.text
    written 1 = "b\ncut" ∧ written 2 = "b\n" := by
  decide +kernel

end Awk
