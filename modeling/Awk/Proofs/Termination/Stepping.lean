import Awk.Proofs.Call
import Awk.Proofs.Relation.Run

/-!
# Runs without a bound of their own

`Runner.stepping` runs loops, bodies of functions and records as they are
written: a loop counts its turns and compares the count with the limit, and
nothing else makes it stop.  Since such a runner need not come to an end, it is
given a number of steps, and every loop, every nest of calls and every pass over
records is cut off where they are used up.

`Agree` says that a computation of the standard runner and one of a stepping
runner do the same, at every depth of calls from a given one on.  It holds of
all rules as soon as the steps exceed the limits, whatever happens where a run
is cut off.
-/

namespace Awk

open List (Forall₂)

/-! ## The stepping runner -/

def tick (kind : LoopKind) (count : Nat) : Exec Unit := do
  let limit := (← get).limits.iterations
  if limit < count then Exec.exceed (.iterations kind) limit

section

variable (cutoff : Exec Unit)

def whileSteps (kind : LoopKind) (test turn : Exec Bool) :
    (steps count : Nat) → Exec Unit
  | 0, _ => cutoff
  | steps + 1, count => do
      if ← test then
        tick kind (count + 1)
        if ← turn then whileSteps kind test turn steps (count + 1)

def doSteps (test turn : Exec Bool) : (steps count : Nat) → Exec Unit
  | 0, _ => cutoff
  | steps + 1, count => do
      tick .doLoop (count + 1)
      if ← turn then
        if ← test then doSteps test turn steps (count + 1)

def keySteps (id : ArrayId) (name : String) (turn : Exec Bool) :
    (count : Nat) → List String → Exec Unit
  | _, [] => pure ()
  | count, key :: rest => do
      if (← Exec.arrayAt id).contains key then
        tick .forIn (count + 1)
        Exec.assignVariable name (.text key)
        if ← turn then keySteps id name turn (count + 1) rest
      else keySteps id name turn count rest

def recordSteps (turn : Exec Bool) : (steps : Nat) → Exec Unit
  | 0 => cutoff
  | steps + 1 => do
      if ← turn then recordSteps turn steps

def Runner.counting (steps : Nat) (body : BodyRunner) : Runner where
  services := body
  whileLoop kind test turn := whileSteps cutoff kind test turn steps 0
  doLoop test turn := doSteps cutoff test turn steps 0
  keyLoop id name turn keys := keySteps id name turn 0 keys
  recordLoop _ turn := recordSteps cutoff turn steps

def bodySteps (steps : Nat) : (left : Nat) → BodyRunner
  | 0, _ => cutoff
  | left + 1, f =>
      Stmt.execAll (.counting cutoff steps (bodySteps steps left)) f.body

/-- Loops, bodies of functions and records as they are written, cut off after so
many steps. -/
def Runner.stepping (steps : Nat) : Runner :=
  .counting cutoff steps (bodySteps cutoff steps steps)

end

/-! ## States along a run -/

structure Steady (m m' : Machine) : Prop where
  limits : m'.limits = m.limits
  depth : m'.depth = m.depth
  cursor : m.input.next ≤ m'.input.next

instance : IsPreorder Machine Steady where
  refl _ := ⟨rfl, rfl, Nat.le_refl _⟩
  trans _ _ _ h₁ h₂ :=
    ⟨h₂.limits.trans h₁.limits, h₂.depth.trans h₁.depth,
      Nat.le_trans h₁.cursor h₂.cursor⟩

theorem Change.steady {m m' : Machine} (h : Change m m') : Steady m m' := by
  cases h <;> exact ⟨rfl, rfl, Nat.le_refl _⟩

theorem Effect.steady {m m' : Machine} (h : Effect m m') : Steady m m' := by
  cases h <;> exact ⟨rfl, rfl, Nat.le_refl _⟩

theorem Move.steady {m m' : Machine} (h : Move m m') : Steady m m' := by
  cases h <;> exact ⟨rfl, rfl, Nat.le_refl _⟩

/-! ## Agreement -/

structure AgreeAt {α : Type} (x y : Exec α) (m : Machine) : Prop where
  same : x m = y m
  steady : Steady m (x.final m)

theorem AgreeAt.of_eq {α : Type} {x y : Exec α} {m : Machine}
    {r : EStateM.Result Fault Machine α} (hx : x m = r) (hy : y m = r)
    (steady : Steady m (stateOf r)) : AgreeAt x y m := by
  refine ⟨hx.trans hy.symm, ?_⟩
  unfold Exec.final
  rw [hx]
  exact steady

theorem AgreeAt.left {α : Type} {x x' y : Exec α} {m : Machine}
    (h : AgreeAt x y m) (hx : x' m = x m) :
    AgreeAt x' y m :=
  .of_eq hx h.same.symm h.steady

def Agree (limits : Limits) (depth : Nat) : ExecRelation := fun _ x y =>
  ∀ m, m.limits = limits → depth ≤ m.depth → AgreeAt x y m

section Agree

variable {limits : Limits} {depth : Nat} {α β : Type}

theorem Agree.mono {depth' : Nat} {x y : Exec α} (h : Agree limits depth α x y)
    (hd : depth ≤ depth') :
    Agree limits depth' α x y :=
  fun m start deep => h m start (Nat.le_trans hd deep)

theorem Agree.bind {x₁ x₂ : Exec α} {f₁ f₂ : α → Exec β}
    (hx : Agree limits depth α x₁ x₂)
    (hf : ∀ a, Agree limits depth β (f₁ a) (f₂ a)) :
    Agree limits depth β (x₁ >>= f₁) (x₂ >>= f₂) := by
  intro m start deep
  obtain ⟨same, steady⟩ := hx m start deep
  cases h : x₁ m with
  | ok a m' =>
      rw [Exec.final_ok h] at steady
      have next :=
        hf a m' (steady.limits.trans start) (by rw [steady.depth]; exact deep)
      refine .of_eq (Exec.bind_ok h f₁) ?_ (trans_of Steady steady next.steady)
      rw [Exec.bind_ok (same.symm.trans h), next.same]
  | error e m' =>
      rw [Exec.final_error h] at steady
      exact .of_eq (Exec.bind_error h f₁)
        (Exec.bind_error (same.symm.trans h) f₂) steady

theorem Agree.get_bind {f g : Machine → Exec α}
    (h : ∀ m, m.limits = limits → depth ≤ m.depth → AgreeAt (f m) (g m) m) :
    Agree limits depth α (get >>= f) (get >>= g) :=
  fun m start deep => ⟨(h m start deep).same, (h m start deep).steady⟩

theorem agree_of_primitive {C : Machine → Machine → Prop} {x : Exec α}
    (hC : ∀ m m', C m m' → Steady m m') (hx : Primitive C x) :
    Agree limits depth α x x :=
  fun m _ _ => ⟨rfl, hx.keeps hC m⟩

theorem agree_sequential : Sequential (Agree limits depth) where
  bind := Agree.bind
  primitive := agree_of_primitive fun _ _ => Change.steady

/-! ## Loops -/

theorem tick_passed {kind : LoopKind} {count : Nat}
    (within : (count : Int) ≤ limits.iterations) {x y : Exec α}
    (h : Agree limits depth α x y) :
    Agree limits depth α x (tick kind count >>= fun _ => y) := by
  intro m start deep
  have free : ¬m.limits.iterations < (count : Int) := by
    rw [start]
    omega
  have step : tick kind count m = .ok () m := by
    change (ite (m.limits.iterations < (count : Int)) (_ : Exec Unit) _) m = _
    rw [if_neg free]
    rfl
  have agrees := h m start deep
  exact .of_eq rfl ((Exec.bind_ok step _).trans agrees.same.symm) agrees.steady

theorem tick_exceeded {kind : LoopKind} {count : Nat}
    (above : limits.iterations < (count : Int)) (rest : Unit → Exec Unit) :
    Agree limits depth Unit (Exec.exceed (.iterations kind) limits.iterations)
      (tick kind count >>= rest) := by
  intro m start _
  have step : tick kind count m =
      .error (.iterations kind ⟨limits.iterations, m.output.text⟩) m := by
    change (ite (m.limits.iterations < (count : Int)) (_ : Exec Unit) _) m = _
    rw [start, if_pos above]
    rfl
  exact .of_eq rfl (Exec.bind_error step rest) (refl_of Steady m)

section Loops

variable {cutoff : Exec Unit} {test₁ test₂ turn₁ turn₂ : Exec Bool}

theorem whileSteps_agree {kind : LoopKind}
    (htest : Agree limits depth Bool test₁ test₂)
    (hturn : Agree limits depth Bool turn₁ turn₂) {left steps count : Nat}
    (total : limits.iterations.toNat = count + left) (enough : left < steps) :
    Agree limits depth Unit
      (whileTurns (Exec.exceed (.iterations kind) limits.iterations) test₁ turn₁
        left)
      (whileSteps cutoff kind test₂ turn₂ steps count) := by
  have done : Agree limits depth Unit (pure ()) (pure ()) :=
    agree_sequential.pure ()
  -- The turns that are left and those that were counted add up to the limit.
  induction left generalizing steps count with
  | zero =>
      obtain ⟨steps, rfl⟩ : ∃ n, steps = n + 1 := ⟨steps - 1, by omega⟩
      refine htest.bind fun b => ?_
      cases b with
      | false => exact done
      | true => exact tick_exceeded (by omega) _
  | succ left ih =>
      obtain ⟨steps, rfl⟩ : ∃ n, steps = n + 1 := ⟨steps - 1, by omega⟩
      refine htest.bind fun b => ?_
      cases b with
      | false => exact done
      | true =>
          refine tick_passed (by omega) (hturn.bind fun again => ?_)
          cases again with
          | false => exact done
          | true => exact ih (by omega) (by omega)

theorem doSteps_agree (htest : Agree limits depth Bool test₁ test₂)
    (hturn : Agree limits depth Bool turn₁ turn₂) {left steps count : Nat}
    (total : limits.iterations.toNat = count + left) (enough : left < steps) :
    Agree limits depth Unit
      (doTurns (Exec.exceed (.iterations .doLoop) limits.iterations) test₁ turn₁
        left)
      (doSteps cutoff test₂ turn₂ steps count) := by
  have done : Agree limits depth Unit (pure ()) (pure ()) :=
    agree_sequential.pure ()
  induction left generalizing steps count with
  | zero =>
      obtain ⟨steps, rfl⟩ : ∃ n, steps = n + 1 := ⟨steps - 1, by omega⟩
      exact tick_exceeded (by omega) _
  | succ left ih =>
      obtain ⟨steps, rfl⟩ : ∃ n, steps = n + 1 := ⟨steps - 1, by omega⟩
      refine tick_passed (by omega) (hturn.bind fun again => ?_)
      cases again with
      | false => exact done
      | true =>
          refine htest.bind fun b => ?_
          cases b with
          | false => exact done
          | true => exact ih (by omega) (by omega)

theorem keySteps_agree (id : ArrayId) (name : String)
    (hturn : Agree limits depth Bool turn₁ turn₂) (keys : List String)
    {left count : Nat} (total : limits.iterations.toNat = count + left) :
    Agree limits depth Unit
      (keyTurns (Exec.exceed (.iterations .forIn) limits.iterations) id name
        turn₁ left keys)
      (keySteps id name turn₂ count keys) := by
  induction keys generalizing left count with
  | nil => exact agree_sequential.pure ()
  | cons key rest ih =>
      refine Agree.bind (agree_sequential.primitive (Exec.arrayAt_primitive id))
        fun t => ?_
      cases t.contains key with
      | false => exact ih total
      | true =>
          cases left with
          | zero => exact tick_exceeded (by omega) _
          | succ left =>
              refine tick_passed (by omega) ?_
              refine Agree.bind (agree_sequential.primitive
                (Exec.assignVariable_primitive name _)) fun _ =>
                  hturn.bind fun again => ?_
              cases again with
              | false => exact agree_sequential.pure ()
              | true => exact ih (by omega)

end Loops

/-! ## Calls and records -/

theorem callBound_agree {run₁ run₂ : BodyRunner} {f : Function}
    (hrun : Agree limits depth Unit (run₁ f) (run₂ f))
    (bindings : List Binding) :
    Agree limits depth Value (callBound run₁ f bindings)
      (callBound run₂ f bindings) := by
  intro m start deep
  have body : Agree limits depth Value (bodyValue run₁ f) (bodyValue run₂ f) :=
    hrun.bind fun _ => agree_sequential.primitive (.view fun _ _ => rfl)
  have entered : Steady m (m.enter f bindings) := by
    obtain ⟨lines, entered⟩ := m.enter_eq f bindings
    rw [entered]
    exact ⟨rfl, rfl, Nat.le_refl _⟩
  obtain ⟨same, steady⟩ :=
    body (m.enter f bindings) (entered.limits.trans start)
      (by rw [entered.depth]; exact deep)
  have through := trans_of Steady entered steady
  refine .of_eq (callBound_apply bindings m) ?_ ?_
  · rw [callBound_apply, same]
  · rw [stateOf_mapState]
    exact ⟨through.limits, through.depth, through.cursor⟩

theorem callFunction_agree {run₁ run₂ : BodyRunner} {f : Function}
    (hrun : (depth : Int) + 1 ≤ limits.calls →
      Agree limits (depth + 1) Unit (run₁ f) (run₂ f))
    {args₁ args₂ : List Argument}
    (hargs : Forall₂ (Argument.Related (Agree limits depth)) args₁ args₂) :
    Agree limits depth Value (callFunction run₁ f args₁)
      (callFunction run₂ f args₂) := by
  -- The arguments are evaluated one level deeper than the call, and so is the
  -- body.
  intro m start deep
  by_cases full : m.limits.calls < m.depth + 1
  · have kept : Steady m (m.noted ["LIMIT", "recursion", f.name,
        toString m.limits.calls]) := by
      obtain ⟨lines, noted⟩ :=
        m.noted_eq ["LIMIT", "recursion", f.name, toString m.limits.calls]
      rw [noted]
      exact ⟨rfl, rfl, Nat.le_refl _⟩
    exact .of_eq (callFunction_refused full args₁)
      (callFunction_refused full args₂) kept
  · have room : (depth : Int) + 1 ≤ limits.calls := by
      rw [start] at full
      omega
    have bindings :=
      (bindingsOf_related agree_sequential hargs f.params.length).mono
        (Nat.le_succ depth)
    obtain ⟨same, steady⟩ :=
      (bindings.bind (callBound_agree (hrun room))) m.deeper start
        (Nat.succ_le_succ deep)
    refine .of_eq (callFunction_apply full args₁) ?_ ?_
    · rw [callFunction_apply full, same]
    · rw [stateOf_mapState]
      exact ⟨steady.limits, congrArg (· - 1) steady.depth, steady.cursor⟩

theorem readNextRecord_agree {place₁ place₂ : Option (Exec Location)}
    (store : ∀ text, Agree limits depth Unit (storeLine place₁ text)
      (storeLine place₂ text)) :
    Agree limits depth Number (readNextRecord place₁)
      (readNextRecord place₂) := by
  -- Storing the line may read records as well, but the cursor ends behind the
  -- record that was read.
  refine Agree.bind (agree_sequential.primitive Exec.records_primitive)
    fun records => ?_
  cases records with
  | none => exact agree_sequential.pure _
  | some records =>
      refine Agree.get_bind fun m start deep => ?_
      dsimp only
      cases records[m.input.next]? with
      | none => exact ⟨rfl, refl_of Steady m⟩
      | some line =>
          obtain ⟨same, steady⟩ := store line m start deep
          change AgreeAt (storeLine place₁ line >>= _)
            (storeLine place₂ line >>= _) m
          cases stored : storeLine place₁ line m with
          | error e m' =>
              rw [Exec.final_error stored] at steady
              exact .of_eq (Exec.bind_error stored _)
                (Exec.bind_error (same.symm.trans stored) _) steady
          | ok a m' =>
              rw [Exec.final_ok stored] at steady
              refine .of_eq (Exec.bind_ok stored _)
                (Exec.bind_ok (same.symm.trans stored) _) ?_
              exact ⟨steady.limits, steady.depth, Nat.le_succ _⟩

end Agree

end Awk
