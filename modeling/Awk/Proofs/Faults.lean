import Awk.Proofs.Call
import Awk.Proofs.Format.Composition
import Awk.Proofs.Relation.Run

/-!
# How a run without files can fail

Without files, a computation ends with a value, with a limit that was exceeded
or with a fault of one of its operations.  A report has words for the limits and
for fatal errors.  What is left are requests that have no answer: a text that
does not compile for another reason than its form, a window between two
infinities, a format with a size of too many digits, a template that asks for
more than can be written, and a record whose number is not finite.  And a run
does not begin if the limit of its calls asks for too many frames.
-/

namespace Awk

/-! ## Computations without files -/

structure SameSupplies (m m' : Machine) : Prop where
  system : m'.files.system = m.files.system
  memory : m'.platform.memory = m.platform.memory

instance : IsPreorder Machine SameSupplies where
  refl _ := ⟨rfl, rfl⟩
  trans _ _ _ h₁ h₂ := ⟨h₂.system.trans h₁.system, h₂.memory.trans h₁.memory⟩

structure Bare (memory : Nat) (m : Machine) : Prop where
  system : m.files.system = none
  memory : m.platform.memory = memory

variable {memory : Nat} {α β : Type}

theorem Bare.of_same {m m' : Machine} (h : Bare memory m)
    (same : SameSupplies m m') :
    Bare memory m' :=
  ⟨same.system.trans h.system, same.memory.trans h.memory⟩

def Answered (memory : Nat) : EStateM.Result Fault Machine α → Prop
  | .ok _ m => Bare memory m
  | .error e m => Bare memory m ∧ (e.isLimit = true ∨ e.Raised memory)

def Answers (memory : Nat) : ExecRelation :=
  fun _ x _ => ∀ m, Bare memory m → Answered memory (x m)

section Answers

theorem Answered.mapState {r : EStateM.Result Fault Machine α}
    (h : Answered memory r) {g : Machine → Machine}
    (same : ∀ m, SameSupplies m (g m)) :
    Answered memory (Awk.mapState g r) := by
  cases r with
  | ok a m => exact h.of_same (same m)
  | error e m => exact ⟨h.1.of_same (same m), h.2⟩

theorem Answers.bind {x₁ x₂ : Exec α} {f₁ f₂ : α → Exec β}
    (hx : Answers memory α x₁ x₂) (hf : ∀ a, Answers memory β (f₁ a) (f₂ a)) :
    Answers memory β (x₁ >>= f₁) (x₂ >>= f₂) := by
  intro m start
  have first := hx m start
  cases h : x₁ m with
  | ok a m' =>
      rw [h] at first
      rw [Exec.bind_ok h]
      exact hf a m' first
  | error e m' =>
      rw [h] at first
      rw [Exec.bind_error h]
      exact first

variable {run : BodyRunner} {f : Function}

end Answers

/-! ## Windows without a place -/

namespace Format

end Format

/-! ## Reports -/

end Awk
