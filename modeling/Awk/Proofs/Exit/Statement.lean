import Awk.Proofs.Jumps.Statement

/-!
# Exit as a fault

`exit` sets a mark, and blocks, loops and rules test for it.  That is as good as
ending the run on the spot, with a fault, as long as no function that exits is
called from inside of an expression: what is left of the expression, and of the
statement that it belongs to, takes no notice of the mark.  So the functions
that may exit have to be called by statements of their own.

The two ways to leave are compared by the state that they leave behind.  The run
that ends on the spot is that of the same program with a statement that always
fails in the place of every `exit`.
-/

namespace Awk

open List (Forall₂)

/-! ## Stopping on the spot -/

def Stmt.stop : Stmt := .expr (.call "substr" [])

def stopFault : Fault := .fatal .substrArguments

mutual

/-- The statement that fails where the given one exits, once the exit code is
evaluated. -/
def Stmt.stopping : Stmt → Stmt
  | .block body => .block (Stmt.stoppingAll body)
  | .ifElse condition yes no =>
      .ifElse condition yes.stopping (Stmt.stoppingOption no)
  | .whileLoop condition body => .whileLoop condition body.stopping
  | .doLoop body condition => .doLoop body.stopping condition
  | .forLoop init condition update body =>
      .forLoop init condition update body.stopping
  | .forIn name array body => .forIn name array body.stopping
  | .exit none => .stop
  | .exit (some code) => .ifElse code .stop (some .stop)
  | s => s

def Stmt.stoppingAll : List Stmt → List Stmt
  | [] => []
  | s :: rest => s.stopping :: Stmt.stoppingAll rest

def Stmt.stoppingOption : Option Stmt → Option Stmt
  | none => none
  | some s => some s.stopping

end

def stoppingBody : (left : Nat) → BodyRunner
  | 0, _ => do Exec.exceed .calls (← get).limits.calls
  | left + 1, f =>
      Stmt.execAll (.limited (stoppingBody left)) (Stmt.stoppingAll f.body)

def Runner.stopping : Runner :=
  .limited fun f => do stoppingBody (← get).limits.calls.toNat f

theorem Stmt.exec_stop (run : Runner) (m : Machine) :
    Stmt.stop.exec run m = .error stopFault m := by
  simp only [Stmt.stop, Stmt.exec]
  refine Exec.bind_error ?_ _
  rw [evalWhole_of_isFlat rfl]
  rfl

/-! ## Where a program exits -/

section Exits

variable (may : String → Bool)

def Part.spares (x : Part) : Bool := x.callee?.all fun name => !may name

def Expr.spares (e : Expr) : Bool := e.parts.all (Part.spares may)

def Expr.callsPlainly : Expr → Bool
  | .call _ args => (Expr.partsAll args).all (Part.spares may)
  | e => e.spares may

mutual

/-- Whether functions that may exit are called by statements of their own, and,
unless it may exit itself, not at all. -/
def Stmt.exitsPlainly (here : Bool) : Stmt → Bool
  | .block body => Stmt.exitsPlainlyAll here body
  | .expr e => e.spares may || (here && e.callsPlainly may)
  | .ifElse condition yes no =>
      condition.spares may && yes.exitsPlainly here &&
        Stmt.exitsPlainlyOption here no
  | .whileLoop condition body => condition.spares may && body.exitsPlainly here
  | .doLoop body condition => condition.spares may && body.exitsPlainly here
  | .forLoop init condition update body =>
      init.all (Expr.spares may) && condition.all (Expr.spares may) &&
        update.all (Expr.spares may) && body.exitsPlainly here
  | .forIn _ _ body => body.exitsPlainly here
  | .exit code => here && code.all (Expr.spares may)
  | s => s.parts.all (Part.spares may)

def Stmt.exitsPlainlyAll (here : Bool) : List Stmt → Bool
  | [] => true
  | s :: rest => s.exitsPlainly here && Stmt.exitsPlainlyAll here rest

def Stmt.exitsPlainlyOption (here : Bool) : Option Stmt → Bool
  | none => true
  | some s => s.exitsPlainly here

end

end Exits

/-! ## States and outcomes -/

/-- What a run has computed and written: the state without its marks, its trace
and its exit code. -/
def Machine.content (m : Machine) : Machine :=
  { m with stage := .loaded, flow := {}, trace := {},
           output := { m.output with exitCode := 0 } }

structure Machine.Going (functions : Table Function) (m : Machine) : Prop where
  functions : m.functions = functions
  exiting : m.flow.exiting = false

/-- The same outcome on both sides, or an exit on one side, with a value as
described, where the other side stops. -/
inductive Ended (functions : Table Function) (here : Bool) {α : Type}
    (last : α → Prop) :
    EStateM.Result Fault Machine α → EStateM.Result Fault Machine α → Prop
  | ok (a : α) {m : Machine} (going : m.Going functions) :
      Ended functions here last (.ok a m) (.ok a m)
  | error (e : Fault) (m : Machine) :
      Ended functions here last (.error e m) (.error e m)
  | exit {a : α} {m m' : Machine} (allowed : here = true) (value : last a)
      (exiting : m.flow.exiting = true) (same : m.content = m'.content) :
      Ended functions here last (.ok a m) (.error stopFault m')

def Stops (functions : Table Function) (here : Bool) {α : Type}
    (last : α → Prop) (x y : Exec α) : Prop :=
  ∀ m, m.Going functions → Ended functions here last (x m) (y m)

def Same (functions : Table Function) : ExecRelation :=
  fun _ x y => Stops functions false (fun _ => False) x y

/-- In a state after an exit, nothing is done to its content. -/
def Passes {α : Type} (last : α → Prop) (x : Exec α) : Prop :=
  ∀ m, m.flow.exiting = true → ∃ a m', x m = .ok a m' ∧ last a ∧
    m'.flow.exiting = true ∧ m'.content = m.content

variable {functions : Table Function} {here : Bool} {α β : Type}
    {last : α → Prop} {last' : β → Prop}

theorem Ended.imp {r s : EStateM.Result Fault Machine α} {there : Bool}
    {later : α → Prop} (h : Ended functions here last r s)
    (allowed : here = true → there = true ∧ ∀ a, last a → later a) :
    Ended functions there later r s := by
  cases h with
  | ok a going => exact .ok a going
  | error e m => exact .error e m
  | exit here value exiting same =>
      obtain ⟨there, weaker⟩ := allowed here
      exact .exit there (weaker _ value) exiting same

theorem Stops.imp {x y : Exec α} {there : Bool} {later : α → Prop}
    (h : Stops functions here last x y)
    (allowed : here = true → there = true ∧ ∀ a, last a → later a) :
    Stops functions there later x y :=
  fun m going => (h m going).imp allowed

theorem Same.stops {x y : Exec α} (h : Same functions α x y) :
    Stops functions here last x y :=
  h.imp nofun

/-- What comes after an exit leaves the content alone, so it may as well not be
done. -/
theorem Stops.bind {x y : Exec α} {f g : α → Exec β}
    (hx : Stops functions here last x y)
    (hf : ∀ a, Stops functions here last' (f a) (g a))
    (rest : ∀ a, last a → Passes last' (f a)) :
    Stops functions here last' (x >>= f) (y >>= g) := by
  intro m going
  generalize first : x m = r, second : y m = s
  have ended : Ended functions here last r s := by
    rw [← first, ← second]
    exact hx m going
  cases ended with
  | ok a going' =>
      rw [Exec.bind_ok first, Exec.bind_ok second]
      exact hf a _ going'
  | error e m' =>
      rw [Exec.bind_error first, Exec.bind_error second]
      exact .error e m'
  | exit allowed value exiting same =>
      obtain ⟨b, m', done, value', exiting', kept⟩ := rest _ value _ exiting
      rw [Exec.bind_ok first, done, Exec.bind_error second]
      exact .exit allowed value' exiting' (kept.trans same)

theorem Same.andThen {x y : Exec α} {f g : α → Exec β}
    (hx : Same functions α x y)
    (hf : ∀ a, Stops functions here last' (f a) (g a)) :
    Stops functions here last' (x >>= f) (y >>= g) := by
  have first : Stops functions here (fun _ => False) x y := hx.stops
  exact first.bind hf fun _ absurd => absurd.elim

theorem Ended.mapState {r s : EStateM.Result Fault Machine α}
    {g : Machine → Machine} (going : ∀ m, m.Going functions →
      (g m).Going functions) (exiting : ∀ m, m.flow.exiting = true →
      (g m).flow.exiting = true) (content : ∀ m m', m.content = m'.content →
      (g m).content = (g m').content) (h : Ended functions here last r s) :
    Ended functions here last (mapState g r) (mapState g s) := by
  cases h with
  | ok a goes => exact .ok a (going _ goes)
  | error e m => exact .error e (g m)
  | exit allowed value exits same =>
      exact .exit allowed value (exiting _ exits) (content _ _ same)

/-! ## What does not exit -/

structure StaysGoing (m m' : Machine) : Prop where
  functions : m'.functions = m.functions
  exiting : m'.flow.exiting = m.flow.exiting

instance : IsPreorder Machine StaysGoing where
  refl _ := ⟨rfl, rfl⟩
  trans _ _ _ h₁ h₂ := ⟨h₂.functions.trans h₁.functions,
    h₂.exiting.trans h₁.exiting⟩

instance : Emits StaysGoing := ⟨fun _ => ⟨rfl, rfl⟩, fun _ _ _ => ⟨rfl, rfl⟩⟩

theorem StaysGoing.going {m m' : Machine} (h : StaysGoing m m')
    (going : m.Going functions) : m'.Going functions :=
  ⟨h.functions.trans going.functions, h.exiting.trans going.exiting⟩

theorem same_of_keeps {x : Exec α} (h : Exec.Keeps StaysGoing x) :
    Same functions α x x := by
  intro m going
  cases result : x m with
  | ok a m' => exact .ok a ((h.of_ok result).going going)
  | error e m' => exact .error e m'

theorem same_of_primitive {C : Machine → Machine → Prop}
    (hC : ∀ m m', C m m' → StaysGoing m m') {x : Exec α} (h : Primitive C x) :
    Same functions α x x :=
  same_of_keeps (h.keeps hC)

theorem same_sequential : Sequential (Same functions) where
  bind := fun hx hf => hx.andThen hf
  primitive := same_of_primitive fun m m' step => by
    cases step <;> exact ⟨rfl, rfl⟩

theorem steer_same (f : Flow → Flow)
    (same : ∀ flow, (f flow).exiting = flow.exiting) :
    Same functions Unit (modify fun m => { m with
      flow := f m.flow }) (modify fun m => { m with flow := f m.flow }) :=
  same_of_keeps fun m => ⟨rfl, same m.flow⟩

theorem same_throw (e : Fault) : Same functions α (throw e) (throw e) :=
  fun m _ => .error e m

/-! ## Calls -/

section Calls

variable {run₁ run₂ : BodyRunner} {f : Function} {args₁ args₂ : List Argument}

theorem Machine.content_leave {m m' before : Machine}
    (same : m.content = m'.content) (f : Function) :
    (before.leave f m).content = (before.leave f m').content := by
  simp only [Machine.content, Machine.mk.injEq] at same
  simp only [Machine.content, Machine.leave, same]

theorem Machine.content_shallower {m m' : Machine}
    (same : m.content = m'.content) :
    m.shallower.content = m'.shallower.content := by
  simp only [Machine.content, Machine.mk.injEq] at same
  simp only [Machine.content, Machine.shallower, same]

theorem callBound_stops
    (hbody : Stops functions here (fun _ => True) (run₁ f) (run₂ f))
    (bindings : List Binding) :
    Stops functions here (fun _ => True) (callBound run₁ f bindings)
      (callBound run₂ f bindings) := by
  have value :
      Same functions Value (do return (← get).flow.returned.getD Value.unset)
        (do return (← get).flow.returned.getD Value.unset) :=
    same_of_keeps fun _ => ⟨rfl, rfl⟩
  have body : Stops functions here (fun _ => True) (bodyValue run₁ f)
      (bodyValue run₂ f) :=
    hbody.bind (fun _ => value.stops) fun _ _ m exiting =>
      ⟨_, m, rfl, trivial, exiting, rfl⟩
  intro m going
  obtain ⟨lines, entered⟩ := m.enter_eq f bindings
  have goes : (m.enter f bindings).Going functions := by
    rw [entered]
    exact ⟨going.functions, going.exiting⟩
  rw [callBound_apply, callBound_apply]
  refine Ended.mapState (fun _ goes => ⟨goes.functions, goes.exiting⟩)
    (fun _ exiting => exiting) ?_ (body _ goes)
  exact fun _ _ same => Machine.content_leave same f

theorem callFunction_stops
    (hbody : Stops functions here (fun _ => True) (run₁ f) (run₂ f))
    (hargs : Forall₂ (Argument.Related (Same functions)) args₁ args₂) :
    Stops functions here (fun _ => True) (callFunction run₁ f args₁)
      (callFunction run₂ f args₂) := by
  intro m going
  by_cases full : m.limits.calls < m.depth + 1
  · rw [callFunction_refused full, callFunction_refused full]
    exact .error _ _
  · have bindings := bindingsOf_related same_sequential hargs f.params.length
    have inner := bindings.andThen fun bound => callBound_stops hbody bound
    rw [callFunction_apply full, callFunction_apply full]
    refine Ended.mapState (fun _ goes => ⟨goes.functions, goes.exiting⟩)
      (fun _ exiting => exiting) ?_ (inner m.deeper ⟨going.functions,
        going.exiting⟩)
    exact fun _ _ => Machine.content_shallower

def Bodies (functions : Table Function) (may : String → Bool)
    (run₁ run₂ : BodyRunner) : Prop :=
  ∀ {name f}, functions.get? name = some f →
    Stops functions (may name) (fun _ => True) (run₁ f) (run₂ f)

variable {may : String → Bool}

theorem callByName_stops (hrun : Bodies functions may run₁ run₂) {name : String}
    (other : Builtin.ofName? name = none)
    (hargs : Forall₂ (Argument.Related (Same functions)) args₁ args₂) :
    Stops functions (may name) (fun _ => True) (callByName run₁ name args₁)
      (callByName run₂ name args₂) := by
  intro m going
  cases found : functions.get? name with
  | some f =>
      have defined : m.functions.get? name = some f := by
        rw [going.functions, found]
      rw [callByName_defined other defined, callByName_defined other defined]
      exact callFunction_stops (hrun found) hargs m going
  | none =>
      have undefined : m.functions.get? name = none := by
        rw [going.functions, found]
      have same : Same functions Value _ _ :=
        same_sequential.bind (same_sequential.primitive
          (Exec.note_primitive ["CALL", "unknown function", name])) fun _ =>
            same_sequential.pure Value.unset
      rw [callByName_unknown other undefined,
        callByName_unknown other undefined]
      exact same.stops m going

theorem same_straight (hrun : Bodies functions may run₁ run₂) :
    Straight (Same functions) run₁ run₂ (fun x => x.spares may = true) Change
      StaysGoing where
  toSequential := same_sequential
  nextRecord := fun _ _ => readNextRecord_related same_sequential fun _ =>
    same_of_keeps fun _ => ⟨rfl, rfl⟩
  nextLine := fun _ => readNextLine_related same_sequential fun path =>
    same_throw (.unread path)
  call := by
    intro name args spares other related
    have plain : may name = false := by
      simpa [Part.spares, Part.callee?, other] using spares
    refine (callByName_stops hrun other related).imp ?_
    rw [plain]
    exact nofun
  straight := same_of_primitive fun _ _ => id
  whole := by
    intro e h m going
    unfold evalWhole
    rw [Exec.get_bind_apply, Exec.get_bind_apply]
    split
    · exact h m going
    · exact .error _ m

end Calls

/-! ## Turns of loops -/

section Turns

variable {tooMany : Exec Unit} {test₁ test₂ turn₁ turn₂ : Exec Bool}
    (hturn : Stops functions here (· = false) turn₁ turn₂)

include hturn

theorem turn_stops {next₁ next₂ : Exec Unit}
    (h : Stops functions here (fun _ => True) next₁ next₂) :
    Stops functions here (fun _ => True)
      (do
        if ← turn₁ then next₁)
      (do
        if ← turn₂ then next₂) := by
  refine hturn.bind (fun again => ?_) ?_
  · cases again with
    | false => exact (same_sequential.pure ()).stops
    | true => exact h
  · rintro _ rfl m exiting
    exact ⟨(), m, rfl, trivial, exiting, rfl⟩

variable (exceeds : Same functions Unit tooMany tooMany)

include exceeds

theorem whileTurns_stops (htest : Same functions Bool test₁ test₂)
    (left : Nat) :
    Stops functions here (fun _ => True) (whileTurns tooMany test₁ turn₁ left)
      (whileTurns tooMany test₂ turn₂ left) := by
  induction left with
  | zero =>
      refine htest.andThen fun holds => ?_
      cases holds with
      | false => exact (same_sequential.pure ()).stops
      | true => exact exceeds.stops
  | succ left ih =>
      refine htest.andThen fun holds => ?_
      cases holds with
      | false => exact (same_sequential.pure ()).stops
      | true => exact turn_stops hturn ih

theorem doTurns_stops (htest : Same functions Bool test₁ test₂) (left : Nat) :
    Stops functions here (fun _ => True) (doTurns tooMany test₁ turn₁ left)
      (doTurns tooMany test₂ turn₂ left) := by
  induction left with
  | zero => exact exceeds.stops
  | succ left ih =>
      refine turn_stops hturn (htest.andThen fun holds => ?_)
      cases holds with
      | false => exact (same_sequential.pure ()).stops
      | true => exact ih

theorem keyTurns_stops (id : ArrayId) (name : String) (left : Nat)
    (keys : List String) :
    Stops functions here (fun _ => True)
      (keyTurns tooMany id name turn₁ left keys)
      (keyTurns tooMany id name turn₂ left keys) := by
  induction keys generalizing left with
  | nil => exact (same_sequential.pure ()).stops
  | cons key rest ih =>
      have array : Same functions (Table Value) (Exec.arrayAt id)
          (Exec.arrayAt id) :=
        same_sequential.primitive (Exec.arrayAt_primitive id)
      refine array.andThen fun t => ?_
      cases t.contains key with
      | false => exact ih left
      | true =>
          cases left with
          | zero => exact exceeds.stops
          | succ left =>
              have assign :
                  Same functions Unit (Exec.assignVariable name (.text key))
                    (Exec.assignVariable name (.text key)) :=
                same_sequential.primitive (Exec.assignVariable_primitive name _)
              exact assign.andThen fun _ => turn_stops hturn (ih left)

end Turns

theorem endTurn_passes : Passes (· = false) endTurn := by
  intro m exiting
  cases breaking : m.flow.breaking with
  | true =>
      refine ⟨false, { m with flow := { m.flow with breaking := false } }, ?_,
        rfl, exiting, rfl⟩
      change (if m.flow.breaking = true then _ else _ : Exec Bool) m = _
      rw [if_pos breaking]
      rfl
  | false =>
      refine ⟨false, { m with flow := { m.flow with continuing := false } }, ?_,
        rfl, exiting, rfl⟩
      change (if m.flow.breaking = true then _ else _ : Exec Bool) m = _
      rw [breaking, if_neg Bool.false_ne_true]
      change EStateM.Result.ok (!(m.flow.exiting || m.flow.next ||
        m.flow.nextFile || m.flow.returning)) _ = _
      rw [exiting, Bool.true_or, Bool.true_or, Bool.true_or, Bool.not_true]

theorem endTurn_same : Same functions Bool endTurn endTurn := by
  refine same_of_keeps (Exec.Keeps.get_bind fun m => ?_)
  dsimp only
  split
  · exact ⟨rfl, rfl⟩
  · exact ⟨rfl, rfl⟩

theorem Stops.endTurn {x y : Exec Unit}
    (h : Stops functions here (fun _ => True) x y) :
    Stops functions here (· = false) (do x; Awk.endTurn) (do y; Awk.endTurn) :=
  h.bind (fun _ => endTurn_same.stops) fun _ _ => endTurn_passes

theorem Stops.update {x y update₁ update₂ : Exec Unit}
    (h : Stops functions here (fun _ => True) x y)
    (hupdate : Same functions Unit update₁ update₂) :
    Stops functions here (· = false)
      (do
        x
        if ← Awk.endTurn then
          update₁
          return true
        else return false)
      (do
        y
        if ← Awk.endTurn then
          update₂
          return true
        else return false) := by
  refine h.bind (fun _ => endTurn_same.andThen fun again => ?_) ?_
  · cases again with
    | false => exact (same_sequential.pure false).stops
    | true =>
        exact (same_sequential.bind hupdate fun _ =>
          same_sequential.pure true).stops
  · intro _ _ m exiting
    obtain ⟨_, m', done, rfl, exiting', kept⟩ := endTurn_passes m exiting
    exact ⟨false, m', Exec.bind_ok done _, rfl, exiting', kept⟩

theorem exceed_same (fault : Exceeded → Fault) (limit : Int) :
    Same functions Unit (Exec.exceed fault limit) (Exec.exceed fault limit) :=
  fun m _ => .error _ m

/-! ## Statements -/

section Statements

variable {run₁ run₂ : BodyRunner} {may : String → Bool}
    (hrun : Bodies functions may run₁ run₂)

theorem execAll_passes (run : Runner) (body : List Stmt) :
    Passes (fun _ => True) (Stmt.execAll run body) := by
  intro m exiting
  refine ⟨(), m, Stmt.execAll_of_interrupted run body ?_, trivial, exiting, rfl⟩
  simp [Flow.interrupted, exiting]

include hrun

theorem evalWhole_same {e : Expr} (spares : e.spares may = true) :
    Same functions Value (evalWhole run₁ e) (evalWhole run₂ e) :=
  evalWhole_related (same_straight hrun) e (List.all_eq_true.1 spares)

theorem isTrue_same {e : Expr} (spares : e.spares may = true) :
    Same functions Bool (isTrue run₁ e) (isTrue run₂ e) :=
  isTrue_related (same_straight hrun) e (List.all_eq_true.1 spares)

theorem evalOption_same {e : Option Expr}
    (spares : e.all (Expr.spares may) = true) :
    Same functions Unit (evalOption run₁ e) (evalOption run₂ e) := by
  cases e with
  | none => exact same_sequential.pure ()
  | some e =>
      exact same_sequential.bind (evalWhole_same hrun spares) fun _ =>
        same_sequential.pure ()

theorem holdsOption_same {e : Option Expr}
    (spares : e.all (Expr.spares may) = true) :
    Same functions Bool (holdsOption run₁ e) (holdsOption run₂ e) := by
  cases e with
  | none => exact same_sequential.pure true
  | some e => exact isTrue_same hrun spares

theorem evalCall_stops {name : String} {args : List Expr}
    (spares : (Expr.call name args).callsPlainly may = true) :
    Stops functions true (fun _ => True) (evalWhole run₁ (.call name args))
      (evalWhole run₂ (.call name args)) := by
  by_cases whole : (Expr.call name args).spares may = true
  · exact (evalWhole_same hrun whole).stops
  · have other : Builtin.ofName? name = none := by
      by_contra builtin
      apply whole
      have first : (Part.expr (.call name args)).spares may = true := by
        simp [Part.spares, Part.callee?, Option.isNone_iff_eq_none, builtin]
      rw [Expr.spares, Expr.parts, List.all_cons, first, Bool.true_and]
      exact spares
    have related :=
      Expr.arguments_related (same_straight hrun).toCompatible args
        (List.all_eq_true.1 spares)
    have call : Stops functions true (fun _ => True)
        ((Expr.call name args).eval run₁)
        ((Expr.call name args).eval run₂) := by
      simp only [Expr.eval]
      exact (callByName_stops hrun other related).imp fun _ =>
        ⟨rfl, fun _ => id⟩
    intro m going
    unfold evalWhole
    rw [Exec.get_bind_apply, Exec.get_bind_apply]
    split
    · exact call m going
    · exact .error _ m

omit hrun in
/-- One side sets the mark of an exit where the other one has stopped. -/
theorem exit_ended {m m' : Machine} (same : m.content = m'.content) :
    Ended functions true (fun _ => True)
      ((do
        Exec.note ["EXIT", "code", toString (← get).output.exitCode]
        modify fun m => { m with flow := { m.flow with exiting := true } } :
        Exec Unit) m)
      (.error stopFault m') := by
  obtain ⟨lines, noted⟩ :=
    m.noted_eq ["EXIT", "code", toString m.output.exitCode]
  change Ended _ _ _ (.ok ()
    { m.noted ["EXIT", "code", toString m.output.exitCode] with
    flow := { (m.noted ["EXIT", "code", toString m.output.exitCode]).flow with
      exiting := true } }) _
  rw [noted]
  exact .exit rfl trivial rfl same

theorem runExit_stops {code : Option Expr}
    (spares : code.all (Expr.spares may) = true) :
    Stops functions true (fun _ => True) (runExit run₁ code)
      ((Stmt.exit code).stopping.exec (.limited run₂)) := by
  cases code with
  | none =>
      intro m _
      simp only [Stmt.stopping, Stmt.exec_stop]
      exact exit_ended rfl
  | some e =>
      simp only [Stmt.stopping, Stmt.exec, isTrue, bind_assoc, pure_bind]
      refine (evalWhole_same hrun spares).andThen fun v m _ => ?_
      have stopped : (if v.truth = true then Stmt.stop.exec (.limited run₂)
          else Stmt.execOption (.limited run₂) (some .stop)) m =
          .error stopFault m := by
        simp only [Stmt.execOption, ite_self, Stmt.exec_stop]
      rw [stopped]
      -- The exit code is no part of the content.
      exact exit_ended (m := { m with
        output := { m.output with exitCode := v.toInteger } }) rfl

end Statements

variable {run₁ run₂ : BodyRunner} {may : String → Bool}

mutual

/-- Statements exit where they are stopped. -/
theorem Stmt.exec_stops (hrun : Bodies functions may run₁ run₂) :
    ∀ s : Stmt, s.exitsPlainly may here = true →
    Stops functions here (fun _ => True) (s.exec (.limited run₁))
      (s.stopping.exec (.limited run₂))
  | .block body, plain => by
      simp only [Stmt.exitsPlainly] at plain
      simp only [Stmt.stopping, Stmt.exec]
      exact Stmt.execAll_stops hrun body plain
  | .expr e, plain => by
      simp only [Stmt.exitsPlainly, Bool.or_eq_true, Bool.and_eq_true] at plain
      simp only [Stmt.stopping, Stmt.exec]
      have value : Stops functions here (fun _ => True) (evalWhole run₁ e)
          (evalWhole run₂ e) := by
        rcases plain with spares | ⟨rfl, call⟩
        · exact (evalWhole_same hrun spares).stops
        · cases e with
          | call name args => exact evalCall_stops hrun call
          | _ => exact (evalWhole_same hrun call).stops
      exact value.bind (fun _ => (same_sequential.pure ()).stops)
        fun _ _ m exiting => ⟨(), m, rfl, trivial, exiting, rfl⟩
  | .print args redirect, plain => by
      simp only [Stmt.exitsPlainly] at plain
      simp only [Stmt.stopping, Stmt.exec]
      exact (runPrint_related (same_straight hrun) args redirect
        (List.all_eq_true.1 plain)).stops
  | .printf format args redirect, plain => by
      simp only [Stmt.exitsPlainly] at plain
      simp only [Stmt.stopping, Stmt.exec]
      exact (runPrintf_related (same_straight hrun) format args redirect
        (List.all_eq_true.1 plain)).stops
  | .ifElse condition yes no, plain => by
      simp only [Stmt.exitsPlainly, Bool.and_eq_true] at plain
      obtain ⟨⟨test, first⟩, second⟩ := plain
      simp only [Stmt.stopping, Stmt.exec]
      refine (isTrue_same hrun test).andThen fun holds => ?_
      cases holds with
      | true => exact Stmt.exec_stops hrun yes first
      | false => exact Stmt.execOption_stops hrun no second
  | .whileLoop condition body, plain => by
      simp only [Stmt.exitsPlainly, Bool.and_eq_true] at plain
      simp only [Stmt.stopping, Stmt.exec]
      exact fun m =>
        whileTurns_stops (Stmt.exec_stops hrun body plain.2).endTurn
          (exceed_same _ _) (isTrue_same hrun plain.1) m.limits.iterations.toNat
          m
  | .doLoop body condition, plain => by
      simp only [Stmt.exitsPlainly, Bool.and_eq_true] at plain
      simp only [Stmt.stopping, Stmt.exec]
      exact fun m => doTurns_stops (Stmt.exec_stops hrun body plain.2).endTurn
        (exceed_same _ _) (isTrue_same hrun plain.1) m.limits.iterations.toNat m
  | .forLoop init condition update body, plain => by
      simp only [Stmt.exitsPlainly, Bool.and_eq_true] at plain
      obtain ⟨⟨⟨start, test⟩, step⟩, inner⟩ := plain
      simp only [Stmt.stopping, Stmt.exec]
      refine (evalOption_same hrun start).andThen fun _ m => ?_
      refine whileTurns_stops ?_ (exceed_same _ _)
        (holdsOption_same hrun test) m.limits.iterations.toNat m
      exact (Stmt.exec_stops hrun body inner).update (evalOption_same hrun step)
  | .forIn name array body, plain => by
      simp only [Stmt.exitsPlainly] at plain
      simp only [Stmt.stopping, Stmt.exec]
      have use : Same functions ArrayId (Exec.useArray array)
          (Exec.useArray array) :=
        same_sequential.primitive (Exec.useArray_primitive array)
      refine use.andThen fun id => ?_
      have table : Same functions (Table Value) (Exec.arrayAt id)
          (Exec.arrayAt id) :=
        same_sequential.primitive (Exec.arrayAt_primitive id)
      refine table.andThen fun t m => ?_
      exact keyTurns_stops (Stmt.exec_stops hrun body plain).endTurn
        (exceed_same _ _) id name m.limits.iterations.toNat t.keys m
  | .breakLoop, _ => by
      simp only [Stmt.stopping, Stmt.exec]
      exact (steer_same (fun f => { f with breaking := true }) fun _ =>
        rfl).stops
  | .continueLoop, _ => by
      simp only [Stmt.stopping, Stmt.exec]
      exact (steer_same (fun f => { f with continuing := true }) fun _ =>
        rfl).stops
  | .nextRecord, _ => by
      simp only [Stmt.stopping, Stmt.exec]
      exact (steer_same (fun f => { f with next := true }) fun _ => rfl).stops
  | .nextFile, _ => by
      simp only [Stmt.stopping, Stmt.exec]
      exact (steer_same (fun f => { f with nextFile := true }) fun _ =>
        rfl).stops
  | .exit code, plain => by
      simp only [Stmt.exitsPlainly, Bool.and_eq_true] at plain
      obtain ⟨rfl, spares⟩ := plain
      rw [Stmt.exec]
      exact runExit_stops hrun spares
  | .returnValue value, plain => by
      simp only [Stmt.exitsPlainly] at plain
      simp only [Stmt.stopping, Stmt.exec]
      have leave : ∀ v, Same functions Unit (modify fun m => { m with
        flow := { m.flow with returned := some v,
                              returning := true } }) (modify fun m => { m with
                                flow := { m.flow with returned := some v,
                                                      returning := true } }) :=
        fun v => steer_same (fun f => { f with returned := some v,
                                               returning := true }) fun _ => rfl
      cases value with
      | none => exact (leave Value.unset).stops
      | some e =>
          simp only [Stmt.parts, List.all_cons, Bool.and_eq_true,
            List.all_eq_true] at plain
          have value :=
            evalWhole_related (same_straight hrun) e
              (forall_mem_partsOf.1 plain.2 e rfl)
          exact value.andThen fun v => (leave v).stops
  | .delete array keys, plain => by
      simp only [Stmt.exitsPlainly, Stmt.parts, List.all_cons, Bool.and_eq_true,
        List.all_eq_true] at plain
      simp only [Stmt.stopping, Stmt.exec]
      exact (runDelete_related (same_straight hrun) array keys plain.2).stops

theorem Stmt.execAll_stops (hrun : Bodies functions may run₁ run₂) :
    ∀ body : List Stmt, Stmt.exitsPlainlyAll may here body = true →
    Stops functions here (fun _ => True) (Stmt.execAll (.limited run₁) body)
      (Stmt.execAll (.limited run₂) (Stmt.stoppingAll body))
  | [], _ => by
      simp only [Stmt.stoppingAll, Stmt.execAll]
      exact (same_sequential.pure ()).stops
  | s :: rest, plain => by
      simp only [Stmt.exitsPlainlyAll, Bool.and_eq_true] at plain
      simp only [Stmt.stoppingAll, Stmt.execAll]
      intro m going
      change Ended _ _ _ ((if m.flow.interrupted = true
        then _ else _ : Exec Unit) m) ((if m.flow.interrupted = true
        then _ else _ : Exec Unit) m)
      split
      · exact .ok () going
      · have first := Stmt.exec_stops hrun s plain.1
        exact first.bind (fun _ => Stmt.execAll_stops hrun rest plain.2)
          (fun _ _ => execAll_passes _ rest) m going

theorem Stmt.execOption_stops (hrun : Bodies functions may run₁ run₂) :
    ∀ s : Option Stmt, Stmt.exitsPlainlyOption may here s = true →
    Stops functions here (fun _ => True) (Stmt.execOption (.limited run₁) s)
      (Stmt.execOption (.limited run₂) (Stmt.stoppingOption s))
  | none, _ => by
      simp only [Stmt.stoppingOption, Stmt.execOption]
      exact (same_sequential.pure ()).stops
  | some s, plain => by
      simp only [Stmt.exitsPlainlyOption] at plain
      simp only [Stmt.stoppingOption, Stmt.execOption]
      exact Stmt.exec_stops hrun s plain

end

/-! ## Bodies of functions -/

def BodiesExitPlainly (functions : Table Function) (may : String → Bool) :
    Prop :=
  ∀ {name f}, functions.get? name = some f →
    Stmt.exitsPlainlyAll may (may name) f.body = true

theorem runBody_stops (plain : BodiesExitPlainly functions may) (left : Nat) :
    Bodies functions may (runBody left) (stoppingBody left) := by
  induction left with
  | zero => exact fun _ m _ => .error _ m
  | succ left ih => exact fun found => Stmt.execAll_stops ih _ (plain found)

theorem runFunction_stops (plain : BodiesExitPlainly functions may) :
    Bodies functions may runFunction Runner.stopping.services.body :=
  fun found m => runBody_stops plain m.limits.calls.toNat found m

theorem execAll_standard_stops (plain : BodiesExitPlainly functions may)
    {body : List Stmt} (exits : Stmt.exitsPlainlyAll may here body = true) :
    Stops functions here (fun _ => True) (Stmt.execAll .standard body)
      (Stmt.execAll .stopping (Stmt.stoppingAll body)) :=
  Stmt.execAll_stops (runFunction_stops plain) body exits

end Awk
