import Awk.Proofs.Operations
import Mathlib.Data.List.Forall2

/-!
# Relations between computations

A relation between computations is transported through the evaluator: if it is
kept by sequencing, holds of every primitive computation with itself, and
relates the calls and the reading of records that two evaluations make, then it
relates the two evaluations of every expression.  Arguments that were not yet
evaluated are related part by part.

An invariant is the case of a relation that looks at one of the two computations
only.  A relation may ask more of primitive computations than that they make
changes: it then holds of expressions that assign only places where writing is
primitive in this sense.
-/

namespace Awk

abbrev ExecRelation := (α : Type) → Exec α → Exec α → Prop

structure Argument.Related (Q : ExecRelation) (a b : Argument) : Prop where
  value : Q Value a.value b.value
  name : a.name = b.name
  pattern : a.pattern = b.pattern
  location : Option.Rel (Q Location) a.location b.location

/-- A relation that sequencing keeps and that every primitive computation has to
itself. -/
structure Sequential (Q : ExecRelation)
    (C : Machine → Machine → Prop := Change) : Prop where
  bind : ∀ {α β : Type} {x₁ x₂ : Exec α} {f₁ f₂ : α → Exec β},
    Q α x₁ x₂ → (∀ a, Q β (f₁ a) (f₂ a)) → Q β (x₁ >>= f₁) (x₂ >>= f₂)
  primitive : ∀ {α : Type} {x : Exec α}, Primitive C x → Q α x x

namespace Sequential

variable {Q : ExecRelation} {C : Machine → Machine → Prop} {α β γ : Type}

theorem pure (hQ : Sequential Q C) (a : α) : Q α (Pure.pure a) (Pure.pure a) :=
  hQ.primitive (.pure a)

theorem get_bind (hQ : Sequential Q C) {f g : Machine → Exec α}
    (hf : ∀ m (s : Surroundings C), f (m.amid s) = f m)
    (hg : ∀ m (s : Surroundings C), g (m.amid s) = g m)
    (h : ∀ m, Q α (f m) (g m)) : Q α (get >>= f) (get >>= g) := by
  -- Reading the state is not primitive, but reading it in plain surroundings
  -- is.
  let plain : Exec Machine := do return (← get).amid (.plain C)
  have same : ∀ k : Machine → Exec α, (∀ m (s : Surroundings C),
      k (m.amid s) = k m) → get >>= k = plain >>= k := by
    intro k hk
    funext m
    exact (congrFun (hk m (.plain C)) m).symm
  rw [same f hf, same g hg]
  exact hQ.bind (hQ.primitive (.view fun m s => m.amid_plain s)) h

theorem get_bind_input (hQ : Sequential Q) {f g : Machine → Exec α}
    (hf : ∀ m limits, f (m.withLimits limits) = f m)
    (hg : ∀ m limits, g (m.withLimits limits) = g m)
    (h : ∀ m, Q α (f m) (g m)) : Q α (get >>= f) (get >>= g) := by
  refine hQ.get_bind (fun m s => ?_) (fun m s => ?_) h
  · rw [Change.amid_eq, hf]
  · rw [Change.amid_eq, hg]

theorem mapM (hQ : Sequential Q C) {f : α → Exec γ} {g : β → Exec γ}
    {as : List α} {bs : List β}
    (h : List.Forall₂ (fun a b => Q γ (f a) (g b)) as bs) :
    Q (List γ) (as.mapM f) (bs.mapM g) := by
  induction h with
  | nil => exact hQ.pure []
  | cons first rest ih =>
      rw [List.mapM_cons, List.mapM_cons]
      refine hQ.bind first fun c => ?_
      exact hQ.bind ih fun cs => hQ.pure (c :: cs)

theorem mapM_same (hQ : Sequential Q C) {f g : α → Exec β} (as : List α)
    (h : ∀ a ∈ as, Q β (f a) (g a)) : Q (List β) (as.mapM f) (as.mapM g) :=
  hQ.mapM (List.forall₂_same.2 h)

end Sequential

/-! ## Results with a property -/

/-- What goes on from results with a property goes on from the two computations
as well. -/
def Into (Q : ExecRelation) {α : Type} (W : α → Prop) (x₁ x₂ : Exec α) : Prop :=
  ∀ ⦃β : Type⦄ ⦃f₁ f₂ : α → Exec β⦄, (∀ a, W a → Q β (f₁ a) (f₂ a)) →
    Q β (x₁ >>= f₁) (x₂ >>= f₂)

namespace Into

variable {Q : ExecRelation} {C : Machine → Machine → Prop} {α β : Type}
    {W : α → Prop}

theorem pure {a : α} (h : W a) : Into Q W (Pure.pure a) (Pure.pure a) := by
  intro γ f₁ f₂ hf
  rw [pure_bind, pure_bind]
  exact hf a h

theorem bind (hQ : Sequential Q C) {x₁ x₂ : Exec β} {f₁ f₂ : β → Exec α}
    (hx : Q β x₁ x₂) (hf : ∀ b, Into Q W (f₁ b) (f₂ b)) :
    Into Q W (x₁ >>= f₁) (x₂ >>= f₂) := by
  intro γ g₁ g₂ hg
  rw [bind_assoc, bind_assoc]
  exact hQ.bind hx fun b => hf b hg

theorem related (hQ : Sequential Q C) {x₁ x₂ : Exec α} (h : Into Q W x₁ x₂) :
    Q α x₁ x₂ := by
  have whole : Q α (x₁ >>= Pure.pure) (x₂ >>= Pure.pure) :=
    h fun a _ => hQ.pure a
  rwa [bind_pure, bind_pure] at whole

theorem imp {V : α → Prop} {x₁ x₂ : Exec α} (h : Into Q W x₁ x₂)
    (weaker : ∀ a, W a → V a) : Into Q V x₁ x₂ :=
  fun _ _ _ hf => h fun a ha => hf a (weaker a ha)

end Into

def Writable (C : Machine → Machine → Prop) (l : Location) : Prop :=
  ∀ v, Primitive C (Exec.writeAt l v)

/-! ## Arguments -/

namespace Argument.Related

variable {Q : ExecRelation} {C : Machine → Machine → Prop} {a b : Argument}

theorem text (hQ : Sequential Q C) (h : a.Related Q b) :
    Q String a.text b.text :=
  hQ.bind h.value fun v => hQ.primitive (Exec.textOf_primitive v)

theorem number (hQ : Sequential Q C) (h : a.Related Q b) :
    Q Number a.number b.number :=
  hQ.bind h.value fun v => hQ.pure v.toNumber

theorem patternText (hQ : Sequential Q C) (h : a.Related Q b) :
    Q String a.patternText b.patternText := by
  unfold Argument.patternText
  rw [h.pattern]
  cases b.pattern with
  | some pattern => exact hQ.pure pattern
  | none => exact h.text hQ

theorem array? (hQ : Sequential Q C) (h : a.Related Q b) :
    Q (Option ArrayId) a.array? b.array? := by
  have same : a.array? = b.array? := by
    unfold Argument.array?
    rw [h.name]
  rw [same]
  exact hQ.primitive (.view fun _ _ => rfl)

end Argument.Related

end Awk
