import Awk.Proofs.Invariant

/-!
# Runs under different limits

Two runs that differ in their limits only go in step until the one with the
lower limits is stopped by one of them.  So a run that no limit stops is the
same under higher limits, and what a stopped run has written is the beginning of
what the other one writes.
-/

namespace Awk

open List (Forall₂)

variable {α β : Type}

/-! ## Output only grows -/

def Advances (m m' : Machine) : Prop :=
  m'.limits = m.limits ∧ m.output.text.toList <+: m'.output.text.toList

instance : IsPreorder Machine Advances where
  refl _ := ⟨rfl, List.prefix_rfl⟩
  trans _ _ _ h₁ h₂ := ⟨h₂.1.trans h₁.1, h₁.2.trans h₂.2⟩

theorem Change.advances {m m' : Machine} (h : Change m m') : Advances m m' := by
  cases h <;> exact refl_of Advances m

theorem Effect.advances {m m' : Machine} (h : Effect m m') : Advances m m' := by
  cases h with
  | write text =>
      refine ⟨rfl, ?_⟩
      change _ <+: (m.output.text ++ text).toList
      rw [String.toList_append]
      exact List.prefix_append _ _
  | _ => exact refl_of Advances m

theorem Move.advances {m m' : Machine} (h : Move m m') : Advances m m' := by
  cases h <;> exact refl_of Advances m

theorem Shift.advances {m m' : Machine} (h : Shift m m') : Advances m m' := by
  cases h <;> exact refl_of Advances m

theorem noted_advances (m : Machine) (parts : List String) :
    Advances m (m.noted parts) := by
  obtain ⟨lines, noted⟩ := m.noted_eq parts
  rw [noted]
  exact refl_of Advances m

/-! ## Outcomes under a lower and a higher limit -/

def Fault.Carries : Fault → String → Prop
  | .iterations _ e, text => e.written = text
  | .calls e, text => e.written = text
  | _, _ => True

/-- What becomes of a state under lower limits and under the limits `high`: the
same, or the first computation was stopped by a limit and what it had written is
the beginning of what the second one wrote. -/
inductive Outcome (high : Limits) (m : Machine) :
    EStateM.Result Fault Machine α → EStateM.Result Fault Machine α → Prop
  | agree {r : EStateM.Result Fault Machine α}
      (unlimited : ∀ e m', r = .error e m' →
        e.isLimit = false) (advances : Advances m (stateOf r)) :
      Outcome high m r (mapState (·.withLimits high) r)
  | stopped {e : Fault} {m' : Machine} {r : EStateM.Result Fault Machine α}
      (limit : e.isLimit = true) (carries : e.Carries m'.output.text)
      (advances : Advances m m')
      (behind : Advances (m'.withLimits high) (stateOf r)) :
      Outcome high m (.error e m') r

namespace Outcome

variable {high : Limits} {m m' : Machine}
    {r₁ r₂ : EStateM.Result Fault Machine α}

theorem after (h : Outcome high m' r₁ r₂) (first : Advances m m') :
    Outcome high m r₁ r₂ := by
  cases h with
  | agree unlimited advances =>
      exact .agree unlimited (trans_of Advances first advances)
  | stopped limit carries advances behind =>
      exact .stopped limit carries (trans_of Advances first advances) behind

theorem grows (h : Outcome high m r₁ r₂) :
    Advances (m.withLimits high) (stateOf r₂) := by
  cases h with
  | agree unlimited advances =>
      cases r₁ with
      | ok a m' => exact ⟨rfl, advances.2⟩
      | error e m' => exact ⟨rfl, advances.2⟩
  | stopped limit carries advances behind =>
      exact ⟨behind.1, advances.2.trans behind.2⟩

theorem mapState {g₁ g₂ : Machine → Machine} (h : Outcome high m r₁ r₂)
    (output₁ : ∀ s, (g₁ s).output.text = s.output.text)
    (limits₁ : ∀ s, (g₁ s).limits = s.limits)
    (same : ∀ s limits, g₂ (s.withLimits limits) = (g₁ s).withLimits limits) :
    Outcome high m (Awk.mapState g₁ r₁) (Awk.mapState g₂ r₂) := by
  have keeps : ∀ {s s' : Machine}, Advances s s' → Advances s (g₁ s') := by
    intro s s' advances
    refine ⟨(limits₁ s').trans advances.1, ?_⟩
    rw [output₁]
    exact advances.2
  -- On the right the state may be any, but it is its own state with its own
  -- limits.
  have right : ∀ s, (g₂ s).output.text = s.output.text ∧
      (g₂ s).limits = s.limits := by
    intro s
    have self : g₂ s = (g₁ s).withLimits s.limits := same s s.limits
    rw [self]
    exact ⟨output₁ s, rfl⟩
  cases h with
  | agree unlimited advances =>
      cases r₁ with
      | ok a m' =>
          have whole :
              Awk.mapState g₂ (Awk.mapState (·.withLimits high) (.ok a m')) =
                Awk.mapState (·.withLimits high)
                (Awk.mapState g₁ (.ok a m')) := by
            simp only [mapState_ok, same]
          rw [whole]
          exact .agree (fun _ _ h => nomatch h) (keeps advances)
      | error e m' =>
          have whole :
              Awk.mapState g₂ (Awk.mapState (·.withLimits high) (.error e m')) =
                Awk.mapState (·.withLimits high)
                (Awk.mapState g₁ (.error e m' :
                  EStateM.Result Fault Machine α)) := by
            simp only [mapState_error, same]
          rw [whole]
          refine .agree ?_ (keeps advances)
          intro e' s h
          cases h
          exact unlimited e m' rfl
  | @stopped e m' r limit carries advances behind =>
      refine .stopped limit ?_ (keeps advances) ?_
      · rw [output₁]
        exact carries
      · rw [stateOf_mapState]
        refine ⟨(right _).2.trans behind.1, ?_⟩
        rw [(right _).1]
        change (g₁ m').output.text.toList <+: _
        rw [output₁]
        exact behind.2

end Outcome

/-! ## Computations under a lower and a higher limit -/

/-- From a state with the limits `low`, the first goes in step with the second
under `high`. -/
def Follows (low high : Limits) : ExecRelation := fun _ x y =>
  ∀ m, m.limits = low → Outcome high m (x m) (y (m.withLimits high))

def AdvancesUnder (limits : Limits) (m m' : Machine) : Prop :=
  m.limits = limits → Advances m m'

instance (limits : Limits) : IsPreorder Machine (AdvancesUnder limits) where
  refl m := fun _ => refl_of Advances m
  trans _ _ _ h₁ h₂ := fun start =>
    trans_of Advances (h₁ start) (h₂ ((h₁ start).1.trans start))

section Follows

variable {low high : Limits}

theorem Follows.grows {x y : Exec α} (h : Follows low high α x y) :
    Exec.Keeps (AdvancesUnder high) y := by
  intro m start
  have back : (m.withLimits low).withLimits high = m := by
    subst start
    rfl
  have outcome := (h (m.withLimits low) rfl).grows
  rwa [back] at outcome

theorem follows_of_primitive {C : Machine → Machine → Prop} {x : Exec α}
    (hC : ∀ m m', C m m' → Advances m m') (hx : Primitive C x) :
    Follows low high α x x := by
  intro m _
  have same : x (m.withLimits high) = mapState (·.withLimits high) (x m) :=
    (hx m).oblivious { limits := high }
  rw [same]
  exact .agree (hx m).unlimited (hx.keeps hC m)

theorem Follows.bind {x₁ x₂ : Exec α} {f₁ f₂ : α → Exec β}
    (hx : Follows low high α x₁ x₂)
    (hf : ∀ a, Follows low high β (f₁ a) (f₂ a)) :
    Follows low high β (x₁ >>= f₁) (x₂ >>= f₂) := by
  intro m start
  have first := hx m start
  cases h₁ : x₁ m with
  | ok a m' =>
      rw [h₁] at first
      generalize h₂ : x₂ (m.withLimits high) = r₂ at first
      cases first with
      | agree unlimited advances =>
          rw [Exec.bind_ok h₁, Exec.bind_ok h₂]
          exact (hf a m' (advances.1.trans start)).after advances
  | error e m' =>
      rw [Exec.bind_error h₁]
      rw [h₁] at first
      generalize h₂ : x₂ (m.withLimits high) = r₂ at first
      cases first with
      | agree unlimited advances =>
          rw [Exec.bind_error h₂]
          exact .agree (r := .error e m') (fun e' s h => by
            cases h; exact unlimited e m' rfl) advances
      | stopped limit carries advances behind =>
          refine .stopped limit carries advances ?_
          cases r₂ with
          | ok b s =>
              rw [Exec.bind_ok h₂]
              exact trans_of Advances behind ((hf b).grows s behind.1)
          | error e' s =>
              rw [Exec.bind_error h₂]
              exact behind

theorem follows_sequential : Sequential (Follows low high) where
  bind := Follows.bind
  primitive := follows_of_primitive fun _ _ => Change.advances

theorem throw_follows {e : Fault} (h : e.isLimit = false) :
    Follows low high α (throw e) (throw e) := by
  intro m _
  refine .agree (r := .error e m) ?_ (refl_of Advances m)
  intro e' m' same
  cases same
  exact h

/-- A computation that a limit stops at once goes in step with any other. -/
theorem exceed_follows (fault : Exceeded → Fault)
    (limit : ∀ e, (fault e).isLimit = true)
    (carries : ∀ e, (fault e).Carries e.written) (n : Int) {y : Exec α}
    (hy : Exec.Keeps (AdvancesUnder high) y) :
    Follows low high α (Exec.exceed fault n) y := by
  intro m _
  exact .stopped (limit _) (carries _) (refl_of Advances m)
    (hy (m.withLimits high) rfl)

/-! ## Calls -/

theorem enter_withLimits (m : Machine) (f : Function) (bindings : List Binding)
    (limits : Limits) :
    (m.withLimits limits).enter f bindings =
      (m.enter f bindings).withLimits limits := by
  unfold Machine.enter Machine.noted Machine.withLimits
  dsimp only
  split <;> rfl

theorem enter_advances (m : Machine) (f : Function) (bindings : List Binding) :
    Advances m (m.enter f bindings) := by
  obtain ⟨lines, entered⟩ := m.enter_eq f bindings
  rw [entered]
  exact refl_of Advances m

theorem callBound_follows {run₁ run₂ : BodyRunner} {f : Function}
    (hrun : Follows low high Unit (run₁ f) (run₂ f)) (bindings : List Binding) :
    Follows low high Value (callBound run₁ f bindings)
      (callBound run₂ f bindings) := by
  intro m start
  have body : Follows low high Value (bodyValue run₁ f) (bodyValue run₂ f) :=
    hrun.bind fun _ => follows_sequential.primitive (.view fun _ _ => rfl)
  have entered := enter_advances m f bindings
  have inside := body (m.enter f bindings) (entered.1.trans start)
  rw [callBound_apply, callBound_apply, enter_withLimits]
  exact (inside.after entered).mapState (fun _ => rfl) (fun _ => rfl) fun _ _ =>
    rfl

theorem callFunction_follows {run₁ run₂ : BodyRunner}
    (hcalls : low.calls ≤ high.calls) {f : Function}
    (hrun : Follows low high Unit (run₁ f) (run₂ f))
    {args₁ args₂ : List Argument}
    (hargs : Forall₂ (Argument.Related (Follows low high)) args₁ args₂) :
    Follows low high Value (callFunction run₁ f args₁)
      (callFunction run₂ f args₂) := by
  have inner :=
    (bindingsOf_related follows_sequential hargs f.params.length).bind
      (callBound_follows hrun)
  intro m start
  subst start
  by_cases full : m.limits.calls < m.depth + 1
  · rw [callFunction_refused full]
    obtain ⟨lines, noted⟩ :=
      m.noted_eq ["LIMIT", "recursion", f.name, toString m.limits.calls]
    rw [noted]
    refine .stopped rfl rfl (refl_of Advances m) ?_
    -- The second call may be refused as well, or run and write more.
    by_cases fullAbove : high.calls < m.depth + 1
    · rw [callFunction_refused (m := m.withLimits high) fullAbove]
      exact noted_advances (m.withLimits high) _
    · rw [callFunction_apply (m := m.withLimits high) fullAbove]
      have deeper := inner.grows (m.deeper.withLimits high) rfl
      rw [stateOf_mapState]
      exact ⟨deeper.1, deeper.2⟩
  · have room : ¬(m.withLimits high).limits.calls < (m.withLimits high).depth +
        1 := by
      intro full'
      exact full (Int.lt_of_le_of_lt hcalls full')
    have deeper : Advances m m.deeper := refl_of Advances m
    rw [callFunction_apply full, callFunction_apply room]
    exact ((inner m.deeper rfl).after deeper).mapState (fun _ => rfl)
      (fun _ => rfl) fun _ _ => rfl

/-! ## Loops -/

section Loops

variable {tooMany₁ tooMany₂ : Exec Unit} {test₁ test₂ turn₁ turn₂ : Exec Bool}

theorem advancing_sequential : Sequential (Along.Kept (AdvancesUnder high)) :=
  Along.kept_sequential fun _ _ step _ => step.advances

theorem whileTurns_follows (over₁ : ∀ y, Exec.Keeps (AdvancesUnder high) y →
    Follows low high Unit tooMany₁ y)
    (over₂ : Exec.Keeps (AdvancesUnder high) tooMany₂)
    (htest : Follows low high Bool test₁ test₂)
    (hturn : Follows low high Bool turn₁ turn₂) {left₁ left₂ : Nat}
    (hleft : left₁ ≤ left₂) :
    Follows low high Unit (whileTurns tooMany₁ test₁ turn₁ left₁)
      (whileTurns tooMany₂ test₂ turn₂ left₂) := by
  have done : Follows low high Unit (pure ()) (pure ()) :=
    follows_sequential.pure ()
  have grows : ∀ left, Along.Kept (AdvancesUnder high) Unit
      (whileTurns tooMany₂ test₂ turn₂ left)
      (whileTurns tooMany₂ test₂ turn₂ left) :=
    whileTurns_related advancing_sequential over₂ htest.grows hturn.grows
  induction left₁ generalizing left₂ with
  | zero =>
      cases left₂ with
      | zero =>
          refine htest.bind fun b => ?_
          cases b with
          | false => exact done
          | true => exact over₁ _ over₂
      | succ left₂ =>
          refine htest.bind fun b => ?_
          cases b with
          | false => exact done
          | true =>
              refine over₁ _ (hturn.grows.bind fun again => ?_)
              cases again with
              | false => exact Exec.Keeps.pure ()
              | true => exact grows left₂
  | succ left₁ ih =>
      obtain ⟨left₂, rfl⟩ : ∃ n, left₂ = n + 1 := ⟨left₂ - 1, by omega⟩
      refine htest.bind fun b => ?_
      cases b with
      | false => exact done
      | true =>
          refine hturn.bind fun again => ?_
          cases again with
          | false => exact done
          | true => exact ih (by omega)

theorem doTurns_follows (over₁ : ∀ y, Exec.Keeps (AdvancesUnder high) y →
    Follows low high Unit tooMany₁ y)
    (over₂ : Exec.Keeps (AdvancesUnder high) tooMany₂)
    (htest : Follows low high Bool test₁ test₂)
    (hturn : Follows low high Bool turn₁ turn₂) {left₁ left₂ : Nat}
    (hleft : left₁ ≤ left₂) :
    Follows low high Unit (doTurns tooMany₁ test₁ turn₁ left₁)
      (doTurns tooMany₂ test₂ turn₂ left₂) := by
  have done : Follows low high Unit (pure ()) (pure ()) :=
    follows_sequential.pure ()
  induction left₁ generalizing left₂ with
  | zero =>
      have grows : Along.Kept (AdvancesUnder high) Unit
          (doTurns tooMany₂ test₂ turn₂ left₂)
          (doTurns tooMany₂ test₂ turn₂ left₂) :=
        doTurns_related advancing_sequential over₂ htest.grows hturn.grows left₂
      exact over₁ _ grows
  | succ left₁ ih =>
      obtain ⟨left₂, rfl⟩ : ∃ n, left₂ = n + 1 := ⟨left₂ - 1, by omega⟩
      refine hturn.bind fun again => ?_
      cases again with
      | false => exact done
      | true =>
          refine htest.bind fun b => ?_
          cases b with
          | false => exact done
          | true => exact ih (by omega)

theorem keyTurns_follows (over₁ : ∀ y, Exec.Keeps (AdvancesUnder high) y →
    Follows low high Unit tooMany₁ y)
    (over₂ : Exec.Keeps (AdvancesUnder high) tooMany₂) (id : ArrayId)
    (name : String) (hturn : Follows low high Bool turn₁ turn₂)
    {left₁ left₂ : Nat} (hleft : left₁ ≤ left₂) (keys : List String) :
    Follows low high Unit (keyTurns tooMany₁ id name turn₁ left₁ keys)
      (keyTurns tooMany₂ id name turn₂ left₂ keys) := by
  have assign : ∀ v, Follows low high Unit (Exec.assignVariable name v)
      (Exec.assignVariable name v) :=
    fun v => follows_sequential.primitive (Exec.assignVariable_primitive name v)
  have grows : ∀ left keys,
      Along.Kept (AdvancesUnder high) Unit
        (keyTurns tooMany₂ id name turn₂ left keys)
        (keyTurns tooMany₂ id name turn₂ left keys) :=
    keyTurns_related advancing_sequential over₂ id
      (Exec.assignVariable_primitive name) hturn.grows
  induction keys generalizing left₁ left₂ with
  | nil => exact follows_sequential.pure ()
  | cons key rest ih =>
      refine Follows.bind (follows_sequential.primitive
        (Exec.arrayAt_primitive id)) fun t => ?_
      cases t.contains key with
      | false => exact ih hleft
      | true =>
          cases left₁ with
          | zero =>
              refine over₁ _ ?_
              cases left₂ with
              | zero => exact over₂
              | succ left₂ =>
                  refine (assign _).grows.bind fun _ =>
                    hturn.grows.bind fun again => ?_
                  cases again with
                  | false => exact Exec.Keeps.pure ()
                  | true => exact grows left₂ rest
          | succ left₁ =>
              obtain ⟨left₂, rfl⟩ : ∃ n, left₂ = n + 1 := ⟨left₂ - 1, by omega⟩
              refine (assign _).bind fun _ => hturn.bind fun again => ?_
              cases again with
              | false => exact follows_sequential.pure ()
              | true => exact ih (by omega)

end Loops

end Follows

end Awk
