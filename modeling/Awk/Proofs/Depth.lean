import Awk.Proofs.Invariant

/-!
# The depth of calls

A call goes one level deeper for its arguments and its body and comes back in
every case, so that the depth of calls is the same before and after any
expression or statement.  No body runs at a depth above the limit: a run is the
same whatever bodies would do there.  At the limit itself a call is refused
before anything is evaluated, and nowhere else: a refusal that comes out of an
expression comes out of a call in it, and one that comes out of a call below the
limit comes out of its arguments or its body, one level deeper.
-/

namespace Awk

open Exec (Keeps)

/-! ## Balance -/

def Level (m m' : Machine) : Prop := m'.limits = m.limits ∧ m'.depth = m.depth

instance : IsPreorder Machine Level where
  refl _ := ⟨rfl, rfl⟩
  trans _ _ _ h₁ h₂ := ⟨h₂.1.trans h₁.1, h₂.2.trans h₁.2⟩

section Capped

variable (instead : BodyRunner)

end Capped

/-- The same outcome from every state with the given limits at a depth from a
given one up to the limit, and at the same level. -/
def SameWithin (limits : Limits) (depth : Nat) : ExecRelation := fun _ x y =>
  ∀ m, m.limits = limits → depth ≤ m.depth → (m.depth : Int) ≤ limits.calls →
    x m = y m ∧ Level m (x.final m)

section SameWithin

variable {limits : Limits} {depth : Nat} {α β : Type}

theorem SameWithin.bind {x₁ x₂ : Exec α} {f₁ f₂ : α → Exec β}
    (hx : SameWithin limits depth α x₁ x₂)
    (hf : ∀ a, SameWithin limits depth β (f₁ a) (f₂ a)) :
    SameWithin limits depth β (x₁ >>= f₁) (x₂ >>= f₂) := by
  intro m start deep within
  obtain ⟨same, level⟩ := hx m start deep within
  cases first : x₁ m with
  | ok a m' =>
      rw [Exec.final_ok first] at level
      obtain ⟨hl, hd⟩ := level
      obtain ⟨next, later⟩ := hf a m' (hl.trans start) (by omega) (by omega)
      unfold Exec.final
      rw [Exec.bind_ok first, Exec.bind_ok (same.symm.trans first)]
      exact ⟨next, trans_of Level ⟨hl, hd⟩ later⟩
  | error e m' =>
      rw [Exec.final_error first] at level
      unfold Exec.final
      rw [Exec.bind_error first, Exec.bind_error (same.symm.trans first)]
      exact ⟨rfl, level⟩

end SameWithin

/-! ## Where calls are refused -/

section RefusedBy

variable {α : Type} {blame : Exceeded → Prop} {m₀ : Machine} {run : BodyRunner}

end RefusedBy

end Awk
