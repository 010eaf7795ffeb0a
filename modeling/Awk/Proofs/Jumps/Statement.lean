import Awk.Proofs.Invariant

/-!
# Where jumps end

`break`, `continue` and `return` set a mark in the state, and blocks are left as
long as it is there.  A loop removes the marks of its own turns and a call
removes all of them, so a statement that starts without marks leaves behind at
most those of the jumps that it makes out of itself: these can be read off its
text, and expressions make none.  A fault leaves no mark behind at all.
-/

namespace Awk

open Exec (Keeps)

structure Flow.Calm (f : Flow) : Prop where
  breaking : f.breaking = false
  continuing : f.continuing = false
  returning : f.returning = false

def StaysCalm (m m' : Machine) : Prop := m.flow.Calm → m'.flow.Calm

instance : IsPreorder Machine StaysCalm where
  refl _ := id
  trans _ _ _ h₁ h₂ := h₂ ∘ h₁

theorem Flow.Calm.interrupted {f : Flow} (h : f.Calm) :
    f.interrupted = (f.exiting || f.next || f.nextFile) := by
  simp [Flow.interrupted, h.breaking, h.continuing, h.returning]

theorem Flow.interrupted_of_not_calm {f : Flow} (h : ¬f.Calm) :
    f.interrupted = true := by
  by_contra going
  simp only [Flow.interrupted, Bool.or_eq_true, not_or, Bool.not_eq_true]
    at going
  obtain ⟨⟨⟨-, returning⟩, breaking⟩, continuing⟩ := going
  exact h ⟨breaking, continuing, returning⟩

/-! ## Expressions -/

theorem StraightEffect.staysCalm {m m' : Machine} (step : StraightEffect m m') :
    StaysCalm m m' := by
  intro calm
  cases step with
  | flow f same =>
      exact ⟨same.breaking.trans calm.breaking,
        same.continuing.trans calm.continuing,
        same.returning.trans calm.returning⟩
  | _ => exact calm

theorem staysCalm_sequential : Sequential (Along.Kept StaysCalm) :=
  Along.kept_sequential fun m m' step => by cases step <;> exact id

/-- Whatever a body does, its call ends without a mark. -/
theorem callFunction_staysCalm (run : BodyRunner) (f : Function)
    {args args' : List Argument}
    (hargs : List.Forall₂ (Argument.Related (Along.Kept StaysCalm)) args
      args') :
    Keeps StaysCalm (callFunction run f args) := by
  intro m
  by_cases full : m.limits.calls < m.depth + 1
  · obtain ⟨lines, noted⟩ :=
      m.noted_eq ["LIMIT", "recursion", f.name, toString m.limits.calls]
    rw [Exec.final_error (callFunction_refused full args), noted]
    exact id
  · have bindings : Keeps StaysCalm (bindingsOf f.params.length args) :=
      bindingsOf_related staysCalm_sequential hargs f.params.length
    have body : ∀ bound, Keeps StaysCalm (callBound run f bound) := by
      intro bound m _
      unfold Exec.final
      rw [callBound_apply, stateOf_mapState]
      exact ⟨rfl, rfl, rfl⟩
    unfold Exec.final
    rw [callFunction_apply full, stateOf_mapState]
    exact bindings.bind body m.deeper

theorem staysCalm_straight (run : BodyRunner) :
    Straight (Along.Kept StaysCalm) run run where
  toSequential := staysCalm_sequential
  nextRecord :=
    fun _ _ => readNextRecord_related staysCalm_sequential fun _ _ => id
  nextLine := fun _ => readNextLine_related staysCalm_sequential fun _ _ => id
  call := fun _ other args =>
    callByName_related staysCalm_sequential
      (fun f => callFunction_staysCalm run f args) other
  straight := Primitive.keeps fun _ _ => StraightEffect.staysCalm
  whole := by
    intro e h
    apply Keeps.get_bind
    intro m
    split
    · exact h m
    · exact id

/-! ## Jumps in the text of a program -/

/-- Jumps out of a statement: to the end of a turn or of a loop around it, or
out of a function. -/
structure Jumps where
  loop : Bool := false
  function : Bool := false
  deriving DecidableEq, Repr

def Jumps.or (j k : Jumps) : Jumps :=
  ⟨j.loop || k.loop, j.function || k.function⟩

def Jumps.outOfLoop (j : Jumps) : Jumps := { j with loop := false }

mutual

def Stmt.jumps : Stmt → Jumps
  | .block body => Stmt.jumpsAll body
  | .ifElse _ yes no => yes.jumps.or (Stmt.jumpsOption no)
  | .whileLoop _ body => body.jumps.outOfLoop
  | .doLoop body _ => body.jumps.outOfLoop
  | .forLoop _ _ _ body => body.jumps.outOfLoop
  | .forIn _ _ body => body.jumps.outOfLoop
  | .breakLoop | .continueLoop => { loop := true }
  | .returnValue _ => { function := true }
  | _ => {}

def Stmt.jumpsAll : List Stmt → Jumps
  | [] => {}
  | s :: rest => s.jumps.or (Stmt.jumpsAll rest)

def Stmt.jumpsOption : Option Stmt → Jumps
  | none => {}
  | some s => s.jumps

end

/-- The marks are those of some of the given jumps, and `break` and `continue`
are not both there. -/
structure Flow.Within (f : Flow) (j : Jumps) : Prop where
  loop : f.breaking = true ∨ f.continuing = true → j.loop = true
  function : f.returning = true → j.function = true
  single : ¬(f.breaking = true ∧ f.continuing = true)

namespace Flow

variable {f : Flow} {j k : Jumps}

theorem Calm.within (h : f.Calm) (j : Jumps) : f.Within j := by
  constructor <;> simp [h.breaking, h.continuing, h.returning]

theorem Within.calm (h : f.Within {}) : f.Calm := by
  constructor
  · exact Bool.eq_false_iff.2 fun set => nomatch h.loop (.inl set)
  · exact Bool.eq_false_iff.2 fun set => nomatch h.loop (.inr set)
  · exact Bool.eq_false_iff.2 fun set => nomatch h.function set

theorem Within.left (h : f.Within j) (k : Jumps) : f.Within (j.or k) where
  loop set := by simp [Jumps.or, h.loop set]
  function set := by simp [Jumps.or, h.function set]
  single := h.single

theorem Within.right (h : f.Within k) (j : Jumps) : f.Within (j.or k) where
  loop set := by simp [Jumps.or, h.loop set]
  function set := by simp [Jumps.or, h.function set]
  single := h.single

end Flow

/-! ## Computations that start without marks -/

def Marks {α : Type} (P : α → Flow → Prop) : EStateM.Result Fault Machine α →
    Prop
  | .ok a m => P a m.flow
  | .error _ m => m.flow.Calm

/-- The marks that a computation leaves behind when it starts without any. -/
def Leaves {α : Type} (P : α → Flow → Prop) (x : Exec α) : Prop :=
  ∀ m, m.flow.Calm → Marks P (x m)

section Leaves

variable {α β : Type} {P : α → Flow → Prop} {P' : β → Flow → Prop}

theorem leaves_of_staysCalm {x : Exec α} (h : Keeps StaysCalm x) :
    Leaves (fun _ f => f.Calm) x := by
  intro m calm
  have final := h m calm
  cases result : x m with
  | ok a m' => rwa [Exec.final_ok result] at final
  | error e m' => rwa [Exec.final_error result] at final

theorem Leaves.imp {x : Exec α} {P₂ : α → Flow → Prop} (h : Leaves P x)
    (weaker : ∀ a f, P a f → P₂ a f) :
    Leaves P₂ x := by
  intro m calm
  have marks := h m calm
  cases result : x m with
  | ok a m' =>
      rw [result] at marks
      exact weaker a _ marks
  | error e m' => rwa [result] at marks

theorem Leaves.bind {x : Exec α} {g : α → Exec β} (hx : Leaves P x)
    (hg : ∀ a m, P a m.flow → Marks P' (g a m)) : Leaves P' (x >>= g) := by
  intro m calm
  have marks := hx m calm
  cases result : x m with
  | ok a m' =>
      rw [result] at marks
      rw [Exec.bind_ok result]
      exact hg a m' marks
  | error e m' =>
      rw [result] at marks
      rw [Exec.bind_error result]
      exact marks

theorem leaves_after {x : Exec α} {g : α → Exec β} (hx : Keeps StaysCalm x)
    (hg : ∀ a, Leaves P' (g a)) :
    Leaves P' (x >>= g) :=
  (leaves_of_staysCalm hx).bind fun a m calm => hg a m calm

end Leaves

/-! ## Loops -/

def AfterTurn (j : Jumps) (again : Bool) (f : Flow) : Prop :=
  f.Within j.outOfLoop ∧ (again = true → f.Calm)

theorem endTurn_marks {j : Jumps} {m : Machine} (h : m.flow.Within j) :
    Marks (AfterTurn j) (endTurn m) := by
  cases breaking : m.flow.breaking with
  | true =>
      have ended : endTurn m = .ok false { m with
        flow := { m.flow with breaking := false } } := by
        change (if m.flow.breaking = true then _ else _ : Exec Bool) m = _
        rw [if_pos breaking]
        rfl
      have continuing : m.flow.continuing = false := by
        simpa [breaking] using h.single
      rw [ended]
      exact ⟨⟨by simp [continuing], h.function, by simp⟩, nofun⟩
  | false =>
      have ended : endTurn m = .ok (!(m.flow.exiting || m.flow.next ||
          m.flow.nextFile || m.flow.returning))
            { m with flow := { m.flow with continuing := false } } := by
        change (if m.flow.breaking = true then _ else _ : Exec Bool) m = _
        rw [if_neg (Bool.eq_false_iff.1 breaking)]
        rfl
      rw [ended]
      refine ⟨⟨by simp [breaking], h.function, by simp⟩, fun again => ?_⟩
      have returning : m.flow.returning = false := by
        simp only [Bool.not_eq_true', Bool.or_eq_false_iff] at again
        exact again.2
      exact ⟨breaking, rfl, returning⟩

section Turns

variable {j : Jumps} {tooMany : Exec Unit} {test turn : Exec Bool}

theorem turn_leaves (hturn : Leaves (AfterTurn j) turn) {rest : Exec Unit}
    (hrest : Leaves (fun _ f => f.Within j.outOfLoop) rest) :
    Leaves (fun _ f => f.Within j.outOfLoop) (do if ← turn then rest) := by
  apply hturn.bind
  rintro (_ | _) m ⟨within, calm⟩
  · exact within
  · exact hrest m (calm rfl)

variable (exceeds : Leaves (fun _ f => f.Within j.outOfLoop) tooMany)
    (hturn : Leaves (AfterTurn j) turn)

include exceeds hturn

theorem whileTurns_leaves (htest : Keeps StaysCalm test) (left : Nat) :
    Leaves (fun _ f => f.Within j.outOfLoop)
      (whileTurns tooMany test turn left) := by
  induction left with
  | zero =>
      apply leaves_after htest
      rintro (_ | _)
      · exact fun m calm => calm.within _
      · exact exceeds
  | succ left ih =>
      apply leaves_after htest
      rintro (_ | _)
      · exact fun m calm => calm.within _
      · exact turn_leaves hturn ih

theorem doTurns_leaves (htest : Keeps StaysCalm test) (left : Nat) :
    Leaves (fun _ f => f.Within j.outOfLoop)
      (doTurns tooMany test turn left) := by
  induction left with
  | zero => exact exceeds
  | succ left ih =>
      apply turn_leaves hturn
      apply leaves_after htest
      rintro (_ | _)
      · exact fun m calm => calm.within _
      · exact ih

theorem keyTurns_leaves (id : ArrayId) (name : String) (left : Nat)
    (keys : List String) :
    Leaves (fun _ f => f.Within j.outOfLoop)
      (keyTurns tooMany id name turn left keys) := by
  induction keys generalizing left with
  | nil => exact fun m calm => calm.within _
  | cons key rest ih =>
      apply leaves_after (staysCalm_sequential.primitive
        (Exec.arrayAt_primitive id))
      intro t
      cases t.contains key with
      | false => exact ih left
      | true =>
          cases left with
          | zero => exact exceeds
          | succ left =>
              apply leaves_after (staysCalm_sequential.primitive
                (Exec.assignVariable_primitive name _))
              intro _
              exact turn_leaves hturn (ih left)

end Turns

/-! ## Statements -/

theorem Stmt.execAll_of_interrupted (run : Runner) (body : List Stmt)
    {m : Machine} (h : m.flow.interrupted = true) :
    Stmt.execAll run body m = .ok () m := by
  cases body with
  | nil =>
      simp only [Stmt.execAll]
      rfl
  | cons s rest =>
      simp only [Stmt.execAll]
      change (if m.flow.interrupted = true then _ else _ : Exec Unit) m = _
      rw [if_pos h]
      rfl

variable {run : BodyRunner}

theorem straight_leaves {x : Exec Unit} (h : Keeps StaysCalm x) (j : Jumps) :
    Leaves (fun _ f => f.Within j) x :=
  (leaves_of_staysCalm h).imp fun _ _ calm => calm.within j

theorem exceed_leaves (kind : LoopKind) (limit : Int) (j : Jumps) :
    Leaves (fun _ f => f.Within j) (Exec.exceed (.iterations kind) limit :
      Exec Unit) :=
  fun _ calm => calm

theorem runReturn_leaves (value : Option Expr) :
    Leaves (fun _ f => f.Within { function := true })
      (runReturn run value) := by
  have leave : ∀ v, Leaves (fun _ f => f.Within { function := true })
      (modify fun m => { m with flow := { m.flow with returned := some v,
                                                      returning := true } } :
        Exec Unit) := by
    intro v m calm
    exact ⟨by simp [calm.breaking, calm.continuing],
      fun _ => rfl, by simp [calm.breaking]⟩
  cases value with
  | none => exact leave Value.unset
  | some e =>
      exact leaves_after (evalWhole_related (staysCalm_straight run) e) leave

theorem body_leaves {j : Jumps} {body : Exec Unit}
    (h : Leaves (fun _ f => f.Within j) body) :
    Leaves (AfterTurn j) (do body; endTurn) :=
  h.bind fun _ _ within => endTurn_marks within

theorem updated_leaves {j : Jumps} {turn : Exec Bool}
    (hturn : Leaves (AfterTurn j) turn) {update : Exec Unit}
    (hupdate : Keeps StaysCalm update) :
    Leaves (AfterTurn j) (do
      if ← turn then
        update
        return true
      else return false) := by
  have next : Leaves (AfterTurn j) (do update; return true) :=
    leaves_after hupdate fun _ _ calm => ⟨calm.within _, fun _ => calm⟩
  apply hturn.bind
  rintro (_ | _) m ⟨within, calm⟩
  · exact ⟨within, nofun⟩
  · exact next m (calm rfl)

mutual

/-- Of the jumps in a statement, only those out of it leave a mark. -/
theorem Stmt.exec_leaves : ∀ s : Stmt,
    Leaves (fun _ f => f.Within s.jumps) (s.exec (.limited run))
  | .block body => by
      simp only [Stmt.exec, Stmt.jumps]
      exact Stmt.execAll_leaves body
  | .expr e => by
      simp only [Stmt.exec]
      apply straight_leaves
      exact Keeps.bind (evalWhole_related (staysCalm_straight run) e) fun _ =>
        Keeps.pure ()
  | .print args redirect => by
      simp only [Stmt.exec]
      exact straight_leaves (runPrint_related (staysCalm_straight run) args
        redirect) _
  | .printf format args redirect => by
      simp only [Stmt.exec]
      exact straight_leaves (runPrintf_related (staysCalm_straight run) format
        args redirect) _
  | .ifElse condition yes no => by
      simp only [Stmt.exec, Stmt.jumps]
      apply leaves_after (isTrue_related (staysCalm_straight run) condition)
      rintro (_ | _)
      · exact (Stmt.execOption_leaves no).imp fun _ _ within => within.right _
      · exact (Stmt.exec_leaves yes).imp fun _ _ within => within.left _
  | .whileLoop condition body => by
      simp only [Stmt.exec, Stmt.jumps]
      intro m calm
      have turn := body_leaves (Stmt.exec_leaves body)
      have test := isTrue_related (staysCalm_straight run) condition
      exact whileTurns_leaves (exceed_leaves _ _ _) turn test
        m.limits.iterations.toNat m calm
  | .doLoop body condition => by
      simp only [Stmt.exec, Stmt.jumps]
      intro m calm
      have turn := body_leaves (Stmt.exec_leaves body)
      have test := isTrue_related (staysCalm_straight run) condition
      exact doTurns_leaves (exceed_leaves _ _ _) turn test
        m.limits.iterations.toNat m calm
  | .forLoop init condition update body => by
      simp only [Stmt.exec, Stmt.jumps]
      apply leaves_after (evalOption_related (staysCalm_straight run) init)
      intro _ m calm
      have test := holdsOption_related (staysCalm_straight run) condition
      have turn := updated_leaves (body_leaves (Stmt.exec_leaves body))
        (evalOption_related (staysCalm_straight run) update)
      rw [bind_assoc] at turn
      exact whileTurns_leaves (exceed_leaves _ _ _) turn test
        m.limits.iterations.toNat m calm
  | .forIn name array body => by
      simp only [Stmt.exec, Stmt.jumps]
      apply leaves_after (staysCalm_sequential.primitive
        (Exec.useArray_primitive array))
      intro id
      apply leaves_after (staysCalm_sequential.primitive
        (Exec.arrayAt_primitive id))
      intro t m calm
      have turn := body_leaves (Stmt.exec_leaves body)
      exact keyTurns_leaves (exceed_leaves _ _ _) turn id name
        m.limits.iterations.toNat t.keys m calm
  | .breakLoop => by
      simp only [Stmt.exec, Stmt.jumps]
      intro m calm
      exact ⟨fun _ => rfl, by simp [calm.returning], by simp [calm.continuing]⟩
  | .continueLoop => by
      simp only [Stmt.exec, Stmt.jumps]
      intro m calm
      exact ⟨fun _ => rfl, by simp [calm.returning], by simp [calm.breaking]⟩
  | .nextRecord => by
      simp only [Stmt.exec]
      have steer :=
        steer_primitive (E := StraightEffect) (fun f => { f with
          next := true }) (fun _ => ⟨rfl, rfl, rfl⟩) fun _ => id
      exact straight_leaves ((staysCalm_straight run).straight steer) _
  | .nextFile => by
      simp only [Stmt.exec]
      have steer : Primitive StraightEffect (modify fun m => { m with
        flow := { m.flow with nextFile := true } }) :=
        .modify (fun _ => .flow _ ⟨rfl, rfl, rfl⟩) (fun _ => rfl) fun _ _ => rfl
      exact straight_leaves ((staysCalm_straight run).straight steer) _
  | .exit code => by
      simp only [Stmt.exec]
      exact straight_leaves (runExit_related (staysCalm_straight run) code) _
  | .returnValue value => by
      simp only [Stmt.exec, Stmt.jumps]
      exact runReturn_leaves value
  | .delete array keys => by
      simp only [Stmt.exec]
      exact straight_leaves (runDelete_related (staysCalm_straight run) array
        keys) _

theorem Stmt.execAll_leaves :
    ∀ body : List Stmt, Leaves (fun _ f => f.Within (Stmt.jumpsAll body))
      (Stmt.execAll (.limited run) body)
  | [] => by
      simp only [Stmt.execAll]
      exact fun _ calm => calm.within _
  | s :: rest => by
      have later := Stmt.execAll_leaves rest
      simp only [Stmt.execAll, Stmt.jumpsAll]
      intro m calm
      change Marks _ ((if m.flow.interrupted = true then pure () else do
        s.exec (.limited run)
        Stmt.execAll (.limited run) rest : Exec Unit) m)
      split
      · exact calm.within _
      · refine (Stmt.exec_leaves s).bind (fun _ m' within => ?_) m calm
        -- The rest runs if no mark is left, and otherwise it is passed over.
        by_cases still : m'.flow.Calm
        · exact (later.imp fun _ _ within => within.right _) m' still
        · rw [Stmt.execAll_of_interrupted _ rest
            (Flow.interrupted_of_not_calm still)]
          exact within.left _

theorem Stmt.execOption_leaves :
    ∀ s : Option Stmt, Leaves (fun _ f => f.Within (Stmt.jumpsOption s))
      (Stmt.execOption (.limited run) s)
  | none => by
      simp only [Stmt.execOption]
      exact fun _ calm => calm.within _
  | some s => by
      simp only [Stmt.execOption, Stmt.jumpsOption]
      exact Stmt.exec_leaves s

end

/-! ## Loops and calls end their jumps -/

def Stmt.isLoop : Stmt → Bool
  | .whileLoop _ _ | .doLoop _ _ | .forLoop _ _ _ _ | .forIn _ _ _ => true
  | _ => false

theorem Stmt.jumps_loop {s : Stmt} (loop : s.isLoop = true) :
    s.jumps.loop = false := by
  cases s with
  | whileLoop condition body => simp only [Stmt.jumps, Jumps.outOfLoop]
  | doLoop body condition => simp only [Stmt.jumps, Jumps.outOfLoop]
  | forLoop init condition update body =>
      simp only [Stmt.jumps, Jumps.outOfLoop]
  | forIn name array body => simp only [Stmt.jumps, Jumps.outOfLoop]
  | _ => simp [Stmt.isLoop] at loop

theorem Flow.Within.loop_ended {f : Flow} {j : Jumps} (h : f.Within j)
    (ended : j.loop = false) :
    f.breaking = false ∧ f.continuing = false := by
  have none : ¬(f.breaking = true ∨ f.continuing = true) := by
    intro set
    simpa [ended] using h.loop set
  simpa using none

/-- From a state without marks, no expression leaves a mark behind, however its
calls and their loops jump, and no loop leaves a mark of `break` or `continue`,
whether they end with a value or with a fault. -/
theorem jumps_end_in_loops_and_calls (run : BodyRunner) {m : Machine}
    (calm : m.flow.Calm) :
    (∀ e : Expr, ((e.eval run).final m).flow.Calm ∧
      ((evalWhole run e).final m).flow.Calm) ∧
      ∀ s : Stmt, s.isLoop = true →
        ((s.exec (.limited run)).final m).flow.breaking = false ∧
          ((s.exec (.limited run)).final m).flow.continuing = false := by
  constructor
  · intro e
    have part := e.eval_related (staysCalm_straight run).toCompatible fun _ _ =>
      trivial
    have whole := evalWhole_related (staysCalm_straight run) e
    exact ⟨part m calm, whole m calm⟩
  · intro s loop
    have leaves : Leaves (fun _ f => f.Within s.jumps)
        (s.exec (.limited run)) := Stmt.exec_leaves s
    have marks := leaves m calm
    cases result : s.exec (.limited run) m with
    | ok a m' =>
        rw [result] at marks
        rw [Exec.final_ok result]
        exact Flow.Within.loop_ended marks (Stmt.jumps_loop loop)
    | error e m' =>
        rw [result] at marks
        rw [Exec.final_error result]
        exact ⟨marks.breaking, marks.continuing⟩

/-- A loop whose body calls a function that breaks out of a loop of its own,
jumps outside of loops and returns, and then goes on with the next turn, until
the limit of turns is exceeded. -/
theorem marks_end_at_limit :
    let f : Function :=
      ⟨"f", [], [.doLoop .breakLoop (.string "x"), .continueLoop, .breakLoop,
        .returnValue (some (.string "y"))]⟩
    let loop : Stmt :=
      .whileLoop (.string "x") (.block [.expr (.call "f" []), .continueLoop,
        .breakLoop])
    let m : Machine := { functions := Table.ofList [("f", f)],
                         limits := { iterations := 3 } }
    m.flow.Calm ∧ (loop.exec .standard m matches .error (.iterations _ _) _) ∧
      ((Expr.call "f" []).eval runFunction |>.final m).flow.Calm ∧
      ((loop.exec .standard).final m).flow.breaking = false ∧
      ((loop.exec .standard).final m).flow.continuing = false := by
  intro f loop m
  have calm : m.flow.Calm := ⟨rfl, rfl, rfl⟩
  obtain ⟨expressions, loops⟩ := jumps_end_in_loops_and_calls runFunction calm
  exact ⟨calm, by decide +kernel, (expressions (.call "f" [])).1,
    loops loop rfl⟩

end Awk
