import Awk.Proofs.Call
import Awk.Proofs.Relation.Run

/-!
# Relations along every run

A preorder on states that contains the elementary changes and passes through
calls relates every state to the one that is left behind: by an expression, by a
statement, by a body of a function and by a whole run, whether it ends with a
value or with a fault.
-/

namespace Awk

open Exec (Keeps)

/-- The ways in which bodies of functions are run: from rules, and from bodies
that are being run. -/
inductive BodyRunner.Occurs : BodyRunner → Prop
  | standard : Occurs runFunction
  | nested (left : Nat) : Occurs (runBody left)

structure AlongActions (R : Machine → Machine → Prop) : Prop where
  change : ∀ {m m' : Machine}, Change m m' → R m m'
  effect : ∀ {m m' : Machine}, Effect m m' → R m m'
  shift : ∀ {m m' : Machine}, Shift m m' → R m m'
  call : ∀ {m m' : Machine} (f : Function) (bindings : List Binding),
    R (m.enter f bindings) m' → R m (m.leave f m')
  nest : ∀ {m m' : Machine}, R m.deeper m' → R m m'.shallower

/-- A relation between the states along every run. -/
structure Along (R : Machine → Machine → Prop) :
    Prop extends AlongActions R where
  move : ∀ {m m' : Machine}, Move m m' → R m m'

namespace Along

variable {R : Machine → Machine → Prop}

def Kept (R : Machine → Machine → Prop) : ExecRelation := fun _ x _ => Keeps R x

variable [IsPreorder Machine R]

theorem kept_sequential {C : Machine → Machine → Prop}
    (hC : ∀ m m', C m m' → R m m') : Sequential (Kept R) C where
  bind := fun hx hf => Keeps.bind hx hf
  primitive := Primitive.keeps hC

theorem iterations_kept (kind : LoopKind) (n : Int) :
    Kept R Unit (Exec.exceed (.iterations kind) n)
      (Exec.exceed (.iterations kind) n) :=
  Keeps.exceed _ n

end Along

namespace AlongActions

open Along (Kept kept_sequential iterations_kept)

variable {R : Machine → Machine → Prop} {run : BodyRunner}

theorem noted (hR : AlongActions R) (m : Machine) (parts : List String) :
    R m (m.noted parts) := by
  obtain ⟨lines, noted⟩ := m.noted_eq parts
  rw [noted]
  exact hR.change (.trace lines)

variable [IsPreorder Machine R]

theorem sequential (hR : AlongActions R) : Sequential (Kept R) :=
  kept_sequential fun _ _ => hR.change

theorem callBound_keeps (hR : AlongActions R) {f : Function}
    (hrun : Keeps R (run f)) (bindings : List Binding) :
    Keeps R (callBound run f bindings) := by
  intro m
  have body : Keeps R (bodyValue run f) := hrun.bind fun _ m => refl_of R m
  unfold Exec.final
  rw [callBound_apply, stateOf_mapState]
  exact hR.call f bindings (body (m.enter f bindings))

theorem callFunction_keeps (hR : AlongActions R) {f : Function}
    (hrun : Keeps R (run f)) {args args' : List Argument}
    (hargs : List.Forall₂ (Argument.Related (Kept R)) args args') :
    Keeps R (callFunction run f args) := by
  intro m
  by_cases full : m.limits.calls < m.depth + 1
  · rw [Exec.final_error (callFunction_refused full args)]
    exact hR.noted m _
  · have bindings : Keeps R (bindingsOf f.params.length args) :=
      bindingsOf_related hR.sequential hargs f.params.length
    have inner := bindings.bind (hR.callBound_keeps hrun)
    unfold Exec.final
    rw [callFunction_apply full, stateOf_mapState]
    exact hR.nest (inner m.deeper)

theorem looping (hR : AlongActions R) (hrun : ∀ f, Keeps R (run f)) :
    Looping (Kept R) (.limited run) (.limited run) where
  toSequential := hR.sequential
  nextRecord := fun _ _ => readNextRecord_related hR.sequential fun next =>
    (setNextRecord_primitive next).keeps fun _ _ => hR.shift
  nextLine := fun _ => readNextLine_related hR.sequential fun _ m => refl_of R m
  call := fun _ other args =>
    callByName_related hR.sequential (fun f =>
      hR.callFunction_keeps (hrun f) args) other
  straight := Primitive.keeps fun _ _ => hR.effect
  whole := by
    intro e h
    refine Keeps.get_bind fun m => ?_
    split
    · exact h m
    · exact refl_of R m
  whileLoop := by
    intro kind _ _ _ _ test turn m
    exact whileTurns_related hR.sequential (iterations_kept _ _) test turn
      m.limits.iterations.toNat m
  doLoop := by
    intro _ _ _ _ test turn m
    exact doTurns_related hR.sequential (iterations_kept _ _) test turn
      m.limits.iterations.toNat m
  keyLoop := by
    intro id _ _ _ keys writable turn m
    exact keyTurns_related hR.sequential (iterations_kept _ _) id writable turn
      m.limits.iterations.toNat keys m

theorem runBody_keeps (hR : AlongActions R) (left : Nat) (f : Function) :
    Keeps R (runBody left f) := by
  induction left generalizing f with
  | zero => exact fun m => refl_of R m
  | succ left ih =>
      exact Stmt.execAll_related (hR.looping ih) f.body fun _ _ => trivial

theorem occurring_keeps (hR : AlongActions R) (hrun : run.Occurs)
    (f : Function) : Keeps R (run f) := by
  cases hrun with
  | standard => exact fun m => hR.runBody_keeps m.limits.calls.toNat f m
  | nested left => exact hR.runBody_keeps left f

theorem eval_keeps (hR : AlongActions R) (run : BodyRunner) (hrun : run.Occurs)
    (e : Expr) : Keeps R (e.eval run) :=
  e.eval_related (hR.looping (hR.occurring_keeps hrun)).toCompatible fun _ _ =>
    trivial

theorem exec_keeps (hR : AlongActions R) (run : BodyRunner) (hrun : run.Occurs)
    (s : Stmt) :
    Keeps R (s.exec (.limited run)) :=
  s.exec_related (hR.looping (hR.occurring_keeps hrun)) fun _ _ => trivial

end AlongActions

/-! ## Whole runs -/

namespace Along

variable {R : Machine → Machine → Prop} [IsPreorder Machine R]

theorem driving (hR : Along R) : Driving (Kept R) .standard .standard where
  toLooping := hR.looping (hR.occurring_keeps .standard)
  move := Primitive.keeps fun _ _ => hR.move
  shift := Primitive.keeps fun _ _ => hR.shift
  recordLoop := fun count _ _ turn =>
    recordTurns_related hR.sequential turn count

theorem runProgram_keeps (hR : Along R) (p : Program)
    (inputs : List NamedInput) :
    Keeps R (runProgram p inputs) :=
  program_related hR.driving p inputs

theorem runLoaded_keeps (hR : Along R) (p : Program) (inputs : List NamedInput)
    (options : Options) (loaded : Keeps R (load p)) :
    Keeps R (runLoaded p inputs options) := by
  have used : Keeps R (useOptions options) :=
    (useOptions_primitive options).keeps fun _ _ => hR.change
  exact used.bind fun _ => loaded.bind fun _ =>
    reserveFrames_keeps.bind fun _ =>
    hR.runProgram_keeps p inputs

end Along

end Awk
