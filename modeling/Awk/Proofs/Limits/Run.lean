import Awk.Proofs.Limits.Follows

/-!
# Whole runs under different limits

`Follows low high` holds of every statement, of every body of a function and of
whole runs, as long as the limits `high` are not below `low`.  A host sees this
in the report: unless a limit stopped the first run, the second one gives the
same report, and otherwise the output of the first is the beginning of the
output of the second.
-/

namespace Awk

variable {low high : Limits}

/-! ## Statements and bodies -/

theorem turnLimit_follows (kind : LoopKind)
    {k₁ k₂ : Nat × Exec Unit → Exec Unit}
    (h : Follows low high Unit (k₁ (low.iterations.toNat,
      Exec.exceed (.iterations kind) low.iterations))
      (k₂ (high.iterations.toNat,
        Exec.exceed (.iterations kind) high.iterations))) :
    Follows low high Unit (turnLimit kind >>= k₁) (turnLimit kind >>= k₂) := by
  intro m start
  subst start
  exact h m rfl

theorem iterations_follow (kind : LoopKind) (n : Int) (y : Exec Unit)
    (hy : Exec.Keeps (AdvancesUnder high) y) :
    Follows low high Unit (Exec.exceed (.iterations kind) n) y :=
  exceed_follows (.iterations kind) (fun _ => rfl) (fun _ => rfl) n hy

theorem Room.fits_mono (r : Room) {e : Expr} {depth : Nat} {l₁ l₂ : Int}
    (hl : l₁ ≤ l₂) (h : r.fits l₁ depth e = true) :
    r.fits l₂ depth e = true := by
  unfold Room.fits at *
  rw [decide_eq_true_eq] at *
  exact Nat.le_trans h (r.left_mono depth hl)

theorem evalWhole_follows {run₁ run₂ : Services}
    (hcalls : low.calls ≤ high.calls) {e : Expr}
    (h : Follows low high Value (e.eval run₁) (e.eval run₂)) :
    Follows low high Value (evalWhole run₁ e) (evalWhole run₂ e) := by
  intro m start
  subst start
  unfold evalWhole
  rw [Exec.get_bind_apply, Exec.get_bind_apply]
  change Outcome high m
    ((if m.platform.room.fits m.limits.calls m.depth e then e.eval run₁
      else throw .noRoom) m)
    ((if m.platform.room.fits high.calls m.depth e then e.eval run₂
      else throw .noRoom) (m.withLimits high))
  by_cases room : m.platform.room.fits m.limits.calls m.depth e = true
  · rw [if_pos room, if_pos (m.platform.room.fits_mono hcalls room)]
    exact h m rfl
  · rw [if_neg room]
    refine .stopped rfl trivial (refl_of Advances m) ?_
    split
    · exact h.grows (m.withLimits high) rfl
    · exact refl_of Advances _

theorem follows_looping {run₁ run₂ : BodyRunner}
    (hiterations : low.iterations ≤ high.iterations)
    (hcalls : low.calls ≤ high.calls)
    (hrun : ∀ f, Follows low high Unit (run₁ f) (run₂ f)) :
    Looping (Follows low high) (.limited run₁) (.limited run₂) where
  toSequential := follows_sequential
  nextRecord := fun _ _ => readNextRecord_related follows_sequential fun next =>
    follows_of_primitive (fun _ _ => Shift.advances)
      (setNextRecord_primitive next)
  nextLine := fun _ => readNextLine_related follows_sequential fun path =>
    throw_follows (e := .unread path) rfl
  call := fun _ other args =>
    callByName_related follows_sequential
      (fun f => callFunction_follows hcalls (hrun f) args) other
  straight := follows_of_primitive fun _ _ => Effect.advances
  whole := evalWhole_follows hcalls
  whileLoop := by
    intro kind _ _ _ _ test turn
    refine turnLimit_follows kind ?_
    exact whileTurns_follows (iterations_follow _ _)
      (Exec.Keeps.exceed _ _) test turn (Int.toNat_le_toNat hiterations)
  doLoop := by
    intro _ _ _ _ test turn
    refine turnLimit_follows .doLoop ?_
    exact doTurns_follows (iterations_follow _ _)
      (Exec.Keeps.exceed _ _) test turn (Int.toNat_le_toNat hiterations)
  keyLoop := by
    intro id name _ _ keys _ turn
    refine turnLimit_follows .forIn ?_
    exact keyTurns_follows (iterations_follow _ _)
      (Exec.Keeps.exceed _ _) id name turn (Int.toNat_le_toNat hiterations) keys

theorem noBody_follows {y : Exec Unit} (hy : Exec.Keeps (AdvancesUnder high) y)
    (f : Function) :
    Follows low high Unit (runBody 0 f) y := by
  intro m start
  exact exceed_follows .calls (fun _ => rfl) (fun _ => rfl) m.limits.calls hy m
    start

theorem runBody_follows_self (left : Nat) (f : Function) :
    Follows high high Unit (runBody left f) (runBody left f) := by
  induction left generalizing f with
  | zero =>
      have stays : Exec.Keeps (AdvancesUnder high) (runBody 0 f) :=
        fun m _ => refl_of Advances m
      exact noBody_follows stays f
  | succ left ih =>
      exact Stmt.execAll_related (follows_looping (Int.le_refl _)
        (Int.le_refl _) ih) f.body fun _ _ => trivial

theorem runBody_follows (hiterations : low.iterations ≤ high.iterations)
    (hcalls : low.calls ≤ high.calls) {left₁ left₂ : Nat}
    (hleft : left₁ ≤ left₂) (f : Function) :
    Follows low high Unit (runBody left₁ f) (runBody left₂ f) := by
  induction left₁ generalizing left₂ f with
  | zero => exact noBody_follows (runBody_follows_self left₂ f).grows f
  | succ left₁ ih =>
      obtain ⟨left₂, rfl⟩ : ∃ n, left₂ = n + 1 := ⟨left₂ - 1, by omega⟩
      have bodies :
          ∀ f, Follows low high Unit (runBody left₁ f) (runBody left₂ f) :=
        fun f => ih (by omega) f
      exact Stmt.execAll_related (follows_looping hiterations hcalls bodies)
        f.body fun _ _ => trivial

theorem follows_driving (hiterations : low.iterations ≤ high.iterations)
    (hcalls : low.calls ≤ high.calls) :
    Driving (Follows low high) .standard .standard where
  toLooping := by
    refine follows_looping hiterations hcalls fun f m start => ?_
    subst start
    exact runBody_follows hiterations hcalls (Int.toNat_le_toNat hcalls) f m rfl
  move := follows_of_primitive fun _ _ => Move.advances
  shift := follows_of_primitive fun _ _ => Shift.advances
  recordLoop := fun count _ _ turn =>
    recordTurns_related follows_sequential turn count

/-! ## Whole runs -/

theorem useOptions_withLimits (options : Options) (limits : Limits)
    (m : Machine) :
    useOptions options (m.withLimits limits) =
      mapState (·.withLimits limits) (useOptions options m) :=
  (useOptions_primitive options m).oblivious { limits := limits }

/-- The outcomes of runs with enough frames, from where the program is
loaded. -/
theorem runLoaded_outcome (high : Limits)
    (hiterations : low.iterations ≤ high.iterations)
    (hcalls : low.calls ≤ high.calls)
    (frames : framesFor high.calls ≤ maxFrames) (p : Program)
    (inputs : List NamedInput) (options : Options) {m : Machine}
    (start : m.limits = low) :
    ∃ loaded, Outcome high loaded (runLoaded p inputs options m)
      (runLoaded p inputs options (m.withLimits high)) := by
  have same := useOptions_withLimits options high m
  cases used : useOptions options m with
  | error e m' =>
      refine ⟨m', ?_⟩
      rw [used] at same
      unfold runLoaded Runner.loaded
      rw [Exec.bind_error used, Exec.bind_error same]
      refine .agree (r := .error e m') ?_ (refl_of Advances m')
      intro e' s h
      cases h
      exact (useOptions_primitive options m).unlimited e m' used
  | ok a m' =>
      rw [used] at same
      have enough : ¬ maxFrames < framesFor high.calls := by omega
      have enoughBelow : ¬ maxFrames < framesFor m.limits.calls := by
        rw [start]
        unfold framesFor at *
        omega
      unfold runLoaded
      rw [loaded_apply used, loaded_apply same]
      rw [if_neg enoughBelow, if_neg (show ¬ maxFrames < framesFor
        (m.withLimits high).limits.calls from enough)]
      have loaded : ((load p).final m').limits = low :=
        (useOptions_limits used).trans start
      exact ⟨_, program_related (follows_driving hiterations hcalls) p inputs
        _ loaded⟩

/-! ## What a host sees -/

def Ending.limited (e : Ending) : Bool :=
  match e.result with
  | .ok report => report.limit.isSome
  | .error _ => false

theorem Ending.ofResult_withLimits (r : EStateM.Result Fault Machine Unit)
    (limits : Limits) :
    Ending.ofResult (mapState (·.withLimits limits) r) = Ending.ofResult r := by
  cases r with
  | ok a m => rfl
  | error e m => cases e <;> rfl

theorem Ending.limited_error {e : Fault} {m : Machine} :
    (Ending.ofResult (.error e m)).limited = e.isLimit := by
  cases e <;> rfl

theorem Ending.reported_of_limited {e : Ending} (h : e.limited = true) :
    ∃ report, e.result = .ok report := by
  unfold Ending.limited at h
  split at h
  next report reported => exact ⟨report, reported⟩
  next => contradiction

namespace Outcome

variable {m : Machine} {r₁ r₂ : EStateM.Result Fault Machine Unit}

theorem carries {e : Fault} {m' : Machine} (h : Outcome high m r₁ r₂)
    (stop : r₁ = .error e m') :
    e.Carries m'.output.text := by
  cases h with
  | agree unlimited advances =>
      have plain := unlimited e m' stop
      cases e with
      | iterations => contradiction
      | calls => contradiction
      | _ => trivial
  | stopped limit carries advances behind =>
      cases stop
      exact carries

theorem report_output (h : Outcome high m r₁ r₂) {report : Report}
    (reported : (Ending.ofResult r₁).result = .ok report) :
    report.output = (stateOf r₁).output.text := by
  cases r₁ with
  | ok a m' =>
      cases reported
      rfl
  | error e m' =>
      have carried := h.carries rfl
      cases e with
      | fatal | noRoom =>
          cases reported
          rfl
      | iterations | calls =>
          cases reported
          exact carried
      | _ => contradiction

theorem ending_eq (h : Outcome high m r₁ r₂)
    (free : (Ending.ofResult r₁).limited = false) :
    Ending.ofResult r₂ = Ending.ofResult r₁ := by
  cases h with
  | agree unlimited advances => exact Ending.ofResult_withLimits r₁ high
  | stopped limit carries advances behind =>
      rw [Ending.limited_error, limit] at free
      contradiction

theorem output_before (h : Outcome high m r₁ r₂) :
    (stateOf r₁).output.text.toList <+: (stateOf r₂).output.text.toList := by
  cases h with
  | agree unlimited advances =>
      rw [stateOf_mapState]
      exact List.prefix_rfl
  | stopped limit carries advances behind => exact behind.2

end Outcome

/-- Without the frames for its calls, a program is not run. -/
theorem runLoaded_without_frames (high : Limits)
    (excess : maxFrames < framesFor high.calls) (p : Program)
    (inputs : List NamedInput) (options : Options) (m : Machine) :
    (∃ m', runLoaded p inputs options (m.withLimits high) =
      .error (.frames (framesFor high.calls)) m') ∨
    ∃ e m', useOptions options m = .error e m' ∧
      runLoaded p inputs options m = .error e m' ∧
      runLoaded p inputs options (m.withLimits high) =
        .error e (m'.withLimits high) := by
  have same := useOptions_withLimits options high m
  cases used : useOptions options m with
  | error e m' =>
      rw [used] at same
      exact .inr ⟨e, m', rfl, Exec.bind_error used _, Exec.bind_error same _⟩
  | ok a m' =>
      rw [used] at same
      have refused := loaded_apply same .standard p inputs
      rw [if_pos (show maxFrames < framesFor (m.withLimits high).limits.calls
        from excess)] at refused
      exact .inl ⟨_, refused⟩

/-- Higher limits change nothing about a run that no limit stopped.  A run that
was stopped reports what it had written, and that is the beginning of what is
written under higher limits.  The limit of the calls must not ask for more
frames than a stack can have: then the program does not run, and there is no
report. -/
theorem run_under_higher_limits (p : Program) (inputs : List NamedInput)
    (options : Options) (host : Host) (iterations calls : Int)
    (hiterations : options.maxIterations ≤ iterations)
    (hcalls : options.maxCalls ≤ calls) :
    let raised : Options :=
      { options with maxIterations := iterations, maxCalls := calls }
    let first := runLoaded p inputs options (startMachine options host)
    let second := runLoaded p inputs raised (startMachine raised host)
    (framesFor calls ≤ maxFrames →
      ((Ending.ofResult first).limited = false →
        Ending.ofResult second = Ending.ofResult first) ∧
      ((Ending.ofResult first).limited = true →
        ∃ report, (Ending.ofResult first).result = .ok report ∧
          report.output = (stateOf first).output.text ∧
          report.output.toList <+: (stateOf second).output.text.toList ∧
          ∀ later, (Ending.ofResult second).result = .ok later →
            report.output.toList <+: later.output.toList)) ∧
    (maxFrames < framesFor calls →
      (Ending.ofResult second).result = .error (.frames (framesFor calls)) ∨
      ∃ e m, useOptions options (startMachine options host) = .error e m ∧
        Ending.ofResult second = Ending.ofResult first) := by
  intro raised first second
  let high : Limits := ⟨iterations, calls⟩
  constructor
  · intro frames
    obtain ⟨loaded, outcome⟩ := runLoaded_outcome high hiterations hcalls frames
      p inputs options (m := startMachine options host) rfl
    obtain ⟨again, self⟩ :=
      runLoaded_outcome high (Int.le_refl _) (Int.le_refl _) frames p inputs
        raised (m := startMachine raised host) rfl
    change Outcome high loaded first second at outcome
    change Outcome high again second _ at self
    constructor
    · exact outcome.ending_eq
    · intro limited
      obtain ⟨report, reported⟩ := Ending.reported_of_limited limited
      have written := outcome.report_output reported
      have before := outcome.output_before
      rw [← written] at before
      refine ⟨report, reported, written, before, ?_⟩
      intro later reported'
      rw [self.report_output reported']
      exact before
  · intro excess
    obtain ⟨m, refused⟩ | ⟨e, m, used, failed, failedAgain⟩ :=
      runLoaded_without_frames high excess p inputs options
        (startMachine options host)
    · have ended : second = .error (.frames (framesFor calls)) m := refused
      rw [ended]
      exact .inl rfl
    · have failed : first = .error e m := failed
      have failedAgain : second = .error e (m.withLimits high) := failedAgain
      rw [failed, failedAgain]
      exact .inr ⟨e, m, used, Ending.ofResult_withLimits (.error e m) high⟩

/-- A loop without end writes one line under a limit of one turn, and that line
comes first under two. -/
theorem endless_loop_under_higher_limits :
    let p : Program :=
      ⟨[⟨.begin, [.whileLoop (.string "x") (.print [.string "b"] none)]⟩], []⟩
    let one : Options := { maxIterations := 1 }
    let two : Options := { maxIterations := 2 }
    let first := Ending.ofResult (runLoaded p [] one (startMachine one {}))
    let second := runLoaded p [] two (startMachine two {})
    first.limited = true ∧ ∃ report, first.result = .ok report ∧
      report.output.toList <+: (stateOf second).output.text.toList := by
  intro p one two first second
  have limited : first.limited = true := by decide +kernel
  obtain ⟨report, reported, -, before, -⟩ :=
    ((run_under_higher_limits p [] one {} 2 100 (by decide) (by decide)).1
      (by decide)).2 limited
  exact ⟨limited, report, reported, before⟩

/-- An empty program that runs with a limit of a hundred calls does not run with
thirty million. -/
theorem no_stack_for_thirty_million_calls :
    let p : Program := ⟨[⟨.begin, []⟩], []⟩
    let raised : Options := { maxCalls := 30000000 }
    ({} : Options).maxCalls ≤ raised.maxCalls ∧
    (Ending.ofResult (runLoaded p [] {} (startMachine {} {}))).result =
      .ok (Report.ofMachine (startMachine {} {}) 0) ∧
    (Ending.ofResult (runLoaded p [] raised (startMachine raised {}))).result =
      .error (.frames 3000001000) := by
  refine ⟨by decide, rfl, rfl⟩

end Awk
