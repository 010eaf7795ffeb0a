import Awk.Proofs.Invariant
import Awk.Proofs.Names

/-!
# Reachable states

A state is reachable if elementary changes, loaded programs and calls of
functions lead to it from the start of a run.  Evaluating an expression,
executing a statement and running a program lead from reachable states to
reachable ones, and so do the bodies of functions inside of them, whatever the
outcome is.  In every reachable state, a name is a scalar or an array or
neither, but never both.
-/

namespace Awk

/-- States that some run goes through. -/
inductive Reachable : Machine → Prop
  | start (options : Options) (host : Host) :
      Reachable (startMachine options host)
  | load {m : Machine} (p : Program) (h : Reachable m) :
      Reachable ((load p).final m)
  | change {m m' : Machine} (h : Reachable m) (step : Change m m') :
      Reachable m'
  | effect {m m' : Machine} (h : Reachable m) (step : Effect m m') :
      Reachable m'
  | move {m m' : Machine} (h : Reachable m) (step : Move m m') : Reachable m'
  | shift {m m' : Machine} (h : Reachable m) (step : Shift m m') : Reachable m'
  | deeper {m : Machine} (h : Reachable m) : Reachable m.deeper
  | shallower {m : Machine} (h : Reachable m) : Reachable m.shallower
  | enter {m : Machine} (f : Function) (bindings : List Binding)
      (h : Reachable m) : Reachable (m.enter f bindings)
  | leave {m before : Machine} (f : Function) (first : Reachable before)
      (h : Reachable m) : Reachable (before.leave f m)

namespace Reachable

/-! ## Runs stay in reachable states -/

def Carried (m m' : Machine) : Prop := Reachable m → Reachable m'

instance : IsPreorder Machine Carried where
  refl _ := id
  trans _ _ _ h₁ h₂ := h₂ ∘ h₁

theorem along : Along Carried where
  change step h := h.change step
  effect step h := h.effect step
  move step h := h.move step
  shift step h := h.shift step
  call f bindings body h := .leave f h (body (h.enter f bindings))
  nest inner h := (inner h.deeper).shallower

theorem useOptions {m : Machine} (h : Reachable m) (options : Options) :
    Reachable ((useOptions options).final m) :=
  (useOptions_primitive options).keeps (R := Carried)
    (fun _ _ => along.change) m h

theorem runLoaded (p : Program) (inputs : List NamedInput) (options : Options)
    (host : Host) :
    Reachable ((runLoaded p inputs options).final
      (startMachine options host)) := by
  have whole : Exec.Keeps Carried (Awk.runLoaded p inputs options) :=
    along.runLoaded_keeps p inputs options fun _ h => h.load p
  exact whole _ (.start options host)

/-! ## Scalars and arrays -/

theorem change_exclusive {m m' : Machine} (step : Change m m')
    (h : m.names.Exclusive) :
    m'.names.Exclusive := by
  cases step with
  | scalar name v ordinary free => exact h.insert_scalar v free
  | newArray name free => exact h.newArray name
  | _ => exact h

theorem proper_pairUp {params : List String} {bindings : List Binding} :
    ∀ entry ∈ pairUp params bindings, entry.2.Proper := by
  fun_induction pairUp params bindings with
  | case1 => simp
  | case2 p params ih =>
      simp only [List.forall_mem_cons]
      exact ⟨Binding.proper_slot _, ih⟩
  | case3 p params b bindings ih =>
      simp only [List.forall_mem_cons]
      exact ⟨b.proper_slot, ih⟩

theorem enter_exclusive {m : Machine} (f : Function) (bindings : List Binding)
    (h : m.names.Exclusive) :
    (m.enter f bindings).names.Exclusive := by
  rw [Machine.names_enter]
  exact h.setAll proper_pairUp

theorem exclusive {m : Machine} (h : Reachable m) : m.names.Exclusive := by
  induction h with
  | start options host =>
      rintro name ⟨scalar, -⟩
      contradiction
  | change _ step ih => exact change_exclusive step ih
  | effect _ step ih => cases step <;> exact ih
  | move _ step ih => cases step <;> exact ih
  | shift _ step ih => cases step <;> exact ih
  | enter f bindings _ ih => exact enter_exclusive f bindings ih
  | leave f _ _ before after => exact after.restore before f.params
  | load _ _ ih => exact ih
  | deeper _ ih => exact ih
  | shallower _ ih => exact ih

end Reachable

/-- A name is never a scalar and an array at once: not in any reachable state,
and all states are reachable that options, expressions, statements, calls and
whole runs leave behind, also after a fault. -/
theorem name_not_scalar_and_array :
    (∀ p inputs options host,
      Reachable ((runLoaded p inputs options).final
        (startMachine options host))) ∧
    ∀ m, Reachable m →
      (∀ options, Reachable ((useOptions options).final m)) ∧
      (∀ run : BodyRunner, run.Occurs →
        (∀ e : Expr, Reachable ((e.eval run).final m)) ∧
        ∀ s : Stmt, Reachable ((s.exec (.limited run)).final m)) ∧
      (∀ f bindings, Reachable (m.enter f bindings)) ∧
      ∀ name, ¬(m.names.scalars.contains name = true ∧
        m.names.arrays.contains name = true) := by
  refine ⟨Reachable.runLoaded, fun m h => ⟨h.useOptions, ?_,
    fun f bindings => h.enter f bindings, h.exclusive⟩⟩
  intro run occurs
  constructor
  · intro e
    exact Reachable.along.eval_keeps run occurs e m h
  · intro s
    exact Reachable.along.exec_keeps run occurs s m h

/-- A scalar, and an array that was handed to a function and filled there. -/
theorem scalar_beside_filled_array :
    let fill : Function :=
      ⟨"f", ["a"],
        [.expr (.assign none (.element "a" [.string "k"]) (.string "v"))]⟩
    let p : Program :=
      ⟨[⟨.begin,
        [.expr (.assign none (.variable "x") (.string "1")), .delete "y" none,
          .expr (.call "f" [.read (.variable "y")])]⟩], [fill]⟩
    let m := (runLoaded p [] {}).final (startMachine {} {})
    m.names.scalars.contains "x" = true ∧ m.names.arrays.contains "y" = true ∧
    Reachable m ∧ ¬(m.names.scalars.contains "y" = true ∧
      m.names.arrays.contains "y" = true) := by
  intro fill p m
  have reached : Reachable m := name_not_scalar_and_array.1 p [] {} {}
  obtain ⟨-, -, -, exclusive⟩ := name_not_scalar_and_array.2 m reached
  exact ⟨by decide +kernel, by decide +kernel, reached, exclusive "y"⟩

end Awk
