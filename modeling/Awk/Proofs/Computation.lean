import Awk.Evaluator.Stmt
import Mathlib.Order.Defs.Unbundled

/-!
# Computations and the states they leave behind

A computation ends with a value or with a fault, and leaves a state behind in
both cases.  `Keeps R x` says that `x` relates every state to the one it leaves
behind.  For a preorder `R` this is closed under sequencing.
-/

namespace Awk

def stateOf {α : Type} : EStateM.Result Fault Machine α → Machine
  | .ok _ m => m
  | .error _ m => m

namespace Exec

variable {α β : Type}

def final (x : Exec α) (m : Machine) : Machine := stateOf (x m)

theorem bind_ok {x : Exec α} {m m' : Machine} {a : α} (h : x m = .ok a m')
    (f : α → Exec β) :
    (x >>= f) m = f a m' := by
  simp only [bind, EStateM.bind, h]

theorem bind_error {x : Exec α} {m m' : Machine} {e : Fault}
    (h : x m = .error e m') (f : α → Exec β) : (x >>= f) m = .error e m' := by
  simp only [bind, EStateM.bind, h]

theorem bind_at {x y : Exec α} {m m' : Machine} (h : x m = y m')
    (f : α → Exec β) :
    (x >>= f) m = (y >>= f) m' := by
  simp only [bind, EStateM.bind, h]

theorem bind_eq_ok {x : Exec α} {f : α → Exec β} {m s : Machine} {b : β} :
    (x >>= f) m = .ok b s ↔ ∃ a m', x m = .ok a m' ∧ f a m' = .ok b s := by
  constructor
  · intro h
    cases first : x m with
    | ok a m' =>
        rw [bind_ok first] at h
        exact ⟨a, m', rfl, h⟩
    | error e m' =>
        rw [bind_error first] at h
        contradiction
  · rintro ⟨a, m', first, h⟩
    rw [bind_ok first, h]

theorem bind_eq_error {x : Exec α} {f : α → Exec β} {m s : Machine}
    {e : Fault} :
    (x >>= f) m = .error e s ↔ x m = .error e s ∨ ∃ a m', x m = .ok a m' ∧
    f a m' = .error e s := by
  cases first : x m with
  | ok a m' =>
      rw [bind_ok first]
      constructor
      · exact fun h => .inr ⟨a, m', rfl, h⟩
      · rintro (h | ⟨_, _, ⟨⟩, h⟩)
        · contradiction
        · exact h
  | error e' m' => simp [bind_error first]

theorem get_bind_apply (f : Machine → Exec α) (m : Machine) :
    (get >>= f) m = f m m := rfl

theorem final_ok {x : Exec α} {m m' : Machine} {a : α} (h : x m = .ok a m') :
    x.final m = m' := by
  simp only [final, h, stateOf]

theorem final_error {x : Exec α} {m m' : Machine} {e : Fault}
    (h : x m = .error e m') :
    x.final m = m' := by
  simp only [final, h, stateOf]

def value? (x : Exec α) (m : Machine) : Option α :=
  match x m with
  | .ok a _ => some a
  | .error _ _ => none

theorem eq_ok_of_value? {x : Exec α} {m : Machine} {a : α}
    (h : x.value? m = some a) : x m = .ok a (x.final m) := by
  unfold value? at h
  cases result : x m with
  | ok b m' =>
      rw [result] at h
      cases h
      rw [final_ok result]
  | error e m' =>
      rw [result] at h
      contradiction

end Exec

/-! ## Texts of values -/

/-- The text of a value in a state, unless the template asks for too much. -/
def Machine.textOf (m : Machine) (v : Value) :
    Except Format.TemplateError String :=
  v.toText m.specials.convfmt m.platform.memory

namespace Exec

theorem textOf_ok {m : Machine} {v : Value} {text : String}
    (h : m.textOf v = .ok text) : textOf v m = .ok text m := by
  change ofTemplate (m.textOf v) m = _
  rw [h]
  rfl

theorem textOf_error {m : Machine} {v : Value} {e : Format.TemplateError}
    (h : m.textOf v = .error e) : textOf v m = .error (.template e) m := by
  change ofTemplate (m.textOf v) m = _
  rw [h]
  rfl

variable {α β : Type}

/-! ## Relations that computations keep -/

def Keeps (R : Machine → Machine → Prop) (x : Exec α) : Prop :=
  ∀ m, R m (x.final m)

namespace Keeps

variable {R : Machine → Machine → Prop}

theorem get_bind {f : Machine → Exec α} (h : ∀ m, R m ((f m).final m)) :
    Keeps R (get >>= f) := h

theorem of_ok {x : Exec α} (hx : Keeps R x) {m m' : Machine} {a : α}
    (h : x m = .ok a m') : R m m' :=
  final_ok h ▸ hx m

variable [IsPreorder Machine R]

theorem pure (a : α) : Keeps R (Pure.pure a) := fun m => refl_of R m

theorem bind {x : Exec α} {f : α → Exec β} (hx : Keeps R x)
    (hf : ∀ a, Keeps R (f a)) : Keeps R (x >>= f) := by
  intro m
  cases h : x m with
  | ok a m' =>
      have first : R m m' := hx.of_ok h
      have second : R m' ((f a).final m') := hf a m'
      have whole : (x >>= f).final m = (f a).final m' := by
        simp only [final, bind_ok h f]
      rw [whole]
      exact trans_of R first second
  | error e m' =>
      rw [final_error (bind_error h f)]
      simpa only [final_error h] using hx m

theorem exceed (fault : Exceeded → Fault) (limit : Int) :
    Keeps R (exceed fault limit : Exec α) := fun m => refl_of R m

end Keeps

end Exec

/-- Flat expressions always find room. -/
theorem evalWhole_of_isFlat {e : Expr} (flat : e.isFlat = true) (run : Services)
    (m : Machine) : evalWhole run e m = e.eval run m := by
  have fits : m.platform.room.fits m.limits.calls m.depth e = true :=
    decide_eq_true (m.platform.room.flat_le m.limits.calls m.depth flat)
  rw [evalWhole, Exec.get_bind_apply, if_pos fits]

end Awk
