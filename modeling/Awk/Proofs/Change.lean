import Awk.Proofs.Computation
import Awk.Run
import Mathlib.Logic.Relation

/-!
# What can change the state

The changes that a run makes are listed once, in four groups: `Change` for what
expressions do on their own, that is outside of calls and of the cursor of the
main input, `Effect` for what statements add to that, `Move` for what the rules
add, and `Shift` for what happens to the main input.  None of them touches the
limits, the functions or the depth of calls.  `StraightEffect` are the effects
other than jumps, and `Quiet` are the changes that have nothing to do with
reading records.

A computation is primitive when it makes changes of one kind only, takes no
notice of the limits, or of the main input if changes of that kind leave it
alone, and fails only with a fatal error or on a request that has no answer.
Every operation on the state is, except opening a file that a host has not read
yet.
-/

namespace Awk

open Relation (ReflTransGen)

/-! ## Kinds of changes -/

/-- What an expression does to the state outside of calls. -/
inductive Change (m : Machine) : Machine → Prop
  | record (r : Record) : Change m { m with record := r }
  | specials (s : Specials) : Change m { m with specials := s }
  | scalar (name : String) (v : Value)
      (ordinary : NameKind.ofName name = .ordinary)
      (free : m.names.arrays.contains name = false) :
      Change m { m with names := { m.names with
        scalars := m.names.scalars.insert name v } }
  | newArray (name : String) (free : m.names.arrays.get? name = none) :
      Change m { m with names := (m.names.newArray name).1 }
  | elements (id : ArrayId) (t : Table Value) :
      Change m { m with names := m.names.setArray id t }
  | regexes {k : Regex.Key} {p : Regex.Pattern} (c : Regex.Cache)
      (looked : m.regexes.lookup k = .ok (p, c)) :
      Change m { m with regexes := c }
  | opened (targets : List String) : Change m { m with
    output := { m.output with opened := targets } }
  | records (r : Array String) : Change m { m with
    input := { m.input with records := some r } }
  | cursors (t : Table FileCursor) : Change m { m with
    files := { m.files with cursors := t } }
  | random (r : Random) : Change m { m with random := r }
  | trace (lines : List String) : Change m { m with
    trace := { m.trace with lines := lines } }

theorem Change.limits {m m' : Machine} (step : Change m m') :
    m'.limits = m.limits := by
  cases step <;> rfl

theorem Change.functions {m m' : Machine} (step : Change m m') :
    m'.functions = m.functions := by
  cases step <;> rfl

/-- What a statement does to the state beside evaluating expressions. -/
inductive Effect (m : Machine) : Machine → Prop
  | write (text : String) : Effect m { m with output := m.output.write text }
  | writeTo (target text : String) (append : Bool) :
      Effect m { m with output := m.output.writeTo target text append }
  | exitCode (n : Int) : Effect m { m with
    output := { m.output with exitCode := n } }
  | flow (f : Flow) : Effect m { m with flow := f }

structure Flow.SameJumps (f g : Flow) : Prop where
  breaking : f.breaking = g.breaking
  continuing : f.continuing = g.continuing
  returning : f.returning = g.returning

inductive StraightEffect (m : Machine) : Machine → Prop
  | write (text : String) : StraightEffect m { m with
    output := m.output.write text }
  | writeTo (target text : String) (append : Bool) :
      StraightEffect m { m with output := m.output.writeTo target text append }
  | exitCode (n : Int) : StraightEffect m { m with
    output := { m.output with exitCode := n } }
  | flow (f : Flow) (same : f.SameJumps m.flow) :
      StraightEffect m { m with flow := f }

theorem StraightEffect.effect {m m' : Machine} (h : StraightEffect m m') :
    Effect m m' := by
  cases h with
  | write text => exact .write text
  | writeTo target text append => exact .writeTo target text append
  | exitCode n => exact .exitCode n
  | flow f same => exact .flow f

inductive Move (m : Machine) : Machine → Prop
  | stage (s : Stage) : Move m { m with stage := s }
  | ranges (r : List Bool) : Move m { m with ranges := r }

inductive Shift (m : Machine) : Machine → Prop
  | attach (text : Option String) : Shift m { m with input := { text := text } }
  | advance (next : Nat) : Shift m { m with
    input := { m.input with next := next } }

structure Quiet (m m' : Machine) : Prop where
  change : Change m m'
  input : m'.input = m.input
  nr : m'.specials.nr = m.specials.nr
  fnr : m'.specials.fnr = m.specials.fnr

structure Silent (m m' : Machine) : Prop extends Quiet m m' where
  filename : m'.specials.filename = m.specials.filename

/-- A kind of changes that the silent ones are of. -/
class Admits (C : Machine → Machine → Prop) : Prop where
  silent : ∀ {m m' : Machine}, Silent m m' → C m m'

instance : Admits Change := ⟨fun h => h.change⟩

instance : Admits Quiet := ⟨Silent.toQuiet⟩

theorem Admits.of_change {C : Machine → Machine → Prop} [Admits C]
    {m m' : Machine} (h : Change m m') (input : m'.input = m.input)
    (specials : m'.specials = m.specials) : C m m' := by
  refine Admits.silent ⟨⟨h, input, ?_, ?_⟩, ?_⟩ <;> rw [specials]

/-! ## Limits and faults -/

def Fault.isLimit : Fault → Bool
  | .iterations _ _ | .calls _ | .noRoom => true
  | _ => false

/-- The faults of operations: fatal errors, and requests without an answer. -/
inductive Fault.Raised (memory : Nat) : Fault → Prop
  | fatal (cause : Fatal) : Raised memory (.fatal cause)
  | pattern {text : String} {e : Regex.PatternError}
      (compiled : Regex.compile text = .error e) (unanswered : e ≠ .malformed) :
      Raised memory (.pattern e)
  | window {text : String} {start : Number} {length : Option Number}
      {e : WindowError} (cut : substring text start length = .error e) :
      Raised memory (.window e)
  | size {format template : String} {values : List Value} {e : Format.SizeError}
      (refused : Format.printf format values template memory =
        .error (.size e)) : Raised memory (.size e)
  | template {x : Number} {template : String} {e : Format.TemplateError}
      (refused : x.text template memory = .error e) :
      Raised memory (.template e)
  | recordNumber {n : Number} (endless : n.truncate? = none) :
      Raised memory (.recordNumber n)

theorem Fault.Raised.isLimit {memory : Nat} {e : Fault} (h : e.Raised memory) :
    e.isLimit = false := by
  cases h <;> rfl

def Machine.withLimits (m : Machine) (limits : Limits) : Machine :=
  { m with limits := limits }

def Machine.withInput (m : Machine) (input : Input) : Machine :=
  { m with input := input }

/-- Limits, and a main input if changes of a kind leave it alone. -/
structure Surroundings (C : Machine → Machine → Prop) where
  limits : Limits
  input : Option Input := none
  spared : input ≠ none → ∀ m m', C m m' → m'.input = m.input := by
    exact fun h => absurd rfl h

def Machine.amid {C : Machine → Machine → Prop} (m : Machine)
    (s : Surroundings C) : Machine :=
  { m with limits := s.limits, input := s.input.getD m.input }

section Surroundings

variable {C D : Machine → Machine → Prop}

def Surroundings.mono (hCD : ∀ m m', C m m' → D m m') (s : Surroundings D) :
    Surroundings C :=
  ⟨s.limits, s.input, fun given m m' h => s.spared given m m' (hCD m m' h)⟩

theorem Surroundings.amid_eq (s : Surroundings C) {m₁ m₂ : Machine}
    (touched : C m₁ m₂) (other : m₂.input ≠ m₁.input) (m : Machine) :
    m.amid s = m.withLimits s.limits := by
  have nothing : s.input = none := Classical.byContradiction fun given =>
    other (s.spared given m₁ m₂ touched)
  unfold Machine.amid Machine.withLimits
  rw [nothing]
  rfl

theorem Change.amid_eq (s : Surroundings Change) (m : Machine) :
    m.amid s = m.withLimits s.limits :=
  s.amid_eq (.records #[] : Change {} _) (by simp) m

theorem Shift.amid_eq (s : Surroundings Shift) (m : Machine) :
    m.amid s = m.withLimits s.limits :=
  s.amid_eq (.advance 1 : Shift {} _) (by simp) m

open Classical in
noncomputable def Surroundings.plain (C : Machine → Machine → Prop) :
    Surroundings C :=
  if h : ∀ m m', C m m' → m'.input = m.input then ⟨{}, some {}, fun _ => h⟩
    else { limits := {} }

theorem Machine.amid_plain (m : Machine) (s : Surroundings C) :
    (m.amid s).amid (.plain C) = m.amid (.plain C) := by
  unfold Surroundings.plain
  split
  · rfl
  · next touched =>
    simp only [Classical.not_forall] at touched
    obtain ⟨m₁, m₂, touched, other⟩ := touched
    rw [s.amid_eq touched other]
    rfl

end Surroundings

def mapState {α : Type} (f : Machine → Machine) :
    EStateM.Result Fault Machine α → EStateM.Result Fault Machine α
  | .ok a m => .ok a (f m)
  | .error e m => .error e (f m)

/-! ## Primitive computations -/

/-- At a state, a computation makes changes of one kind only, whatever surrounds
it, and has faults of its own. -/
structure PrimitiveAt (C : Machine → Machine → Prop) {α : Type} (x : Exec α)
    (m : Machine) : Prop where
  changes : ReflTransGen C m (x.final m)
  oblivious : ∀ s : Surroundings C, x (m.amid s) = mapState (·.amid s) (x m)
  platform : (x.final m).platform = m.platform
  raised : ∀ e m', x m = .error e m' → e.Raised m.platform.memory

def Primitive (C : Machine → Machine → Prop) {α : Type} (x : Exec α) : Prop :=
  ∀ m, PrimitiveAt C x m

namespace PrimitiveAt

variable {C : Machine → Machine → Prop} {α β : Type} {m : Machine}

theorem unlimited {x : Exec α} (hx : PrimitiveAt C x m) (e : Fault)
    (m' : Machine) (h : x m = .error e m') :
    e.isLimit = false :=
  (hx.raised e m' h).isLimit

theorem pure (a : α) : PrimitiveAt C (Pure.pure a) m :=
  ⟨.refl, fun _ => rfl, rfl, fun _ _ h => nomatch h⟩

theorem throw {e : Fault} (h : e.Raised m.platform.memory) :
    PrimitiveAt C (throw e : Exec α) m := by
  refine ⟨.refl, fun _ => rfl, rfl, ?_⟩
  intro e' m' h'
  cases h'
  exact h

theorem fatal (cause : Fatal) : PrimitiveAt C (Exec.fatal cause : Exec α) m :=
  throw (.fatal cause)

theorem modify {f : Machine → Machine} (h : C m (f m))
    (platform : (f m).platform = m.platform)
    (same : ∀ s : Surroundings C, f (m.amid s) = (f m).amid s) :
    PrimitiveAt C (modify f) m := by
  refine ⟨.single h, ?_, platform, fun _ _ h => nomatch h⟩
  intro s
  exact congrArg (EStateM.Result.ok ()) (same s)

theorem get_bind {f : Machine → Exec α}
    (same : ∀ s : Surroundings C, f (m.amid s) = f m)
    (h : PrimitiveAt C (f m) m) :
    PrimitiveAt C (get >>= f) m := by
  refine ⟨h.changes, ?_, h.platform, h.raised⟩
  intro s
  have step : (get >>= f) (m.amid s) = f m (m.amid s) := congrFun (same s) _
  rw [step]
  exact h.oblivious s

theorem view_bind {f : Machine → α} {g : α → Exec β}
    (same : ∀ s : Surroundings C, f (m.amid s) = f m)
    (h : PrimitiveAt C (g (f m)) m) :
    PrimitiveAt C ((do return f (← get)) >>= g) m := by
  have looked : ((do return f (← get)) >>= g : Exec β) = get >>= fun m =>
    g (f m) := rfl
  rw [looked]
  refine get_bind (fun s => ?_) h
  rw [same s]

end PrimitiveAt

namespace Primitive

variable {C : Machine → Machine → Prop} {α β : Type}

theorem pure (a : α) : Primitive C (Pure.pure a : Exec α) := fun _ => .pure a

theorem throw {e : Fault} (h : ∀ memory, e.Raised memory) :
    Primitive C (throw e : Exec α) := fun _ => .throw (h _)

theorem fatal (cause : Fatal) : Primitive C (Exec.fatal cause : Exec α) :=
  fun _ => .fatal cause

theorem modify {f : Machine → Machine} (h : ∀ m, C m (f m))
    (platform : ∀ m, (f m).platform = m.platform)
    (same : ∀ m (s : Surroundings C), f (m.amid s) = (f m).amid s) :
    Primitive C (modify f) := fun m => .modify (h m) (platform m) (same m)

theorem mono {D : Machine → Machine → Prop} (hCD : ∀ m m', C m m' → D m m')
    {x : Exec α} (hx : Primitive C x) : Primitive D x := fun m =>
  ⟨ReflTransGen.mono hCD _ _ (hx m).changes,
    fun s => (hx m).oblivious (s.mono hCD), (hx m).platform, (hx m).raised⟩

theorem bind_of {P : α → Prop} {x : Exec α} {f : α → Exec β}
    (hx : Primitive C x) (values : ∀ {m a m'}, x m = .ok a m' → P a)
    (hf : ∀ a, P a → Primitive C (f a)) :
    Primitive C (x >>= f) := by
  intro m
  cases h : x m with
  | ok a m' =>
      have step : (x >>= f) m = f a m' := Exec.bind_ok h f
      have there := hf a (values h) m'
      have same : m'.platform = m.platform := by
        simpa only [Exec.final_ok h] using (hx m).platform
      refine ⟨?_, ?_, ?_, ?_⟩
      · have first : ReflTransGen C m m' := by
          simpa only [Exec.final_ok h] using (hx m).changes
        simpa only [Exec.final, step] using first.trans there.changes
      · intro s
        have first : x (m.amid s) = .ok a (m'.amid s) := by
          rw [(hx m).oblivious, h]
          rfl
        rw [Exec.bind_ok first f, step]
        exact there.oblivious s
      · simpa only [Exec.final, step] using there.platform.trans same
      · rw [step, ← same]
        exact there.raised
  | error e m' =>
      have step : (x >>= f) m = .error e m' := Exec.bind_error h f
      refine ⟨?_, ?_, ?_, ?_⟩
      · simpa only [Exec.final_error step, Exec.final_error h]
          using (hx m).changes
      · intro s
        have there : x (m.amid s) = .error e (m'.amid s) := by
          rw [(hx m).oblivious, h]
          rfl
        rw [Exec.bind_error there f, step]
        rfl
      · simpa only [Exec.final_error step, Exec.final_error h]
          using (hx m).platform
      · intro e' m'' h'
        rw [step] at h'
        cases h'
        exact (hx m).raised e m' h

theorem bind {x : Exec α} {f : α → Exec β} (hx : Primitive C x)
    (hf : ∀ a, Primitive C (f a)) :
    Primitive C (x >>= f) :=
  hx.bind_of (P := fun _ => True) (fun _ => trivial) fun a _ => hf a

theorem get_bind {f : Machine → Exec α}
    (same : ∀ m (s : Surroundings C), f (m.amid s) = f m)
    (h : ∀ m, PrimitiveAt C (f m) m) : Primitive C (get >>= f) :=
  fun m => .get_bind (same m) (h m)

theorem view {f : Machine → α} (same : ∀ m (s : Surroundings C),
    f (m.amid s) = f m) :
    Primitive C (do return f (← get)) := by
  refine get_bind ?_ fun m => .pure (f m)
  intro m s
  rw [same]

theorem keeps {R : Machine → Machine → Prop} [IsPreorder Machine R] {x : Exec α}
    (hC : ∀ m m', C m m' → R m m') (hx : Primitive C x) : Exec.Keeps R x := by
  intro m
  have steps : ReflTransGen R m (x.final m) :=
    ReflTransGen.mono hC _ _ (hx m).changes
  rwa [Relation.reflTransGen_eq_self] at steps

theorem constant {x : Exec α} {f : Machine → β} (hx : Primitive C x)
    (hC : ∀ m m', C m m' → f m' = f m) (m : Machine) : f (x.final m) = f m := by
  have changes := (hx m).changes
  generalize x.final m = m' at changes
  induction changes with
  | refl => rfl
  | tail _ step ih => exact (hC _ _ step).trans ih

theorem withInput {x : Exec α} (hx : Primitive C x)
    (limits : ∀ m m', C m m' → m'.limits = m.limits)
    (spares : ∀ m m', C m m' → m'.input = m.input) (m : Machine)
    (input : Input) :
    x (m.withInput input) = mapState (·.withInput input) (x m) := by
  have same := (hx m).oblivious ⟨m.limits, some input, fun _ => spares⟩
  have kept := hx.constant limits m
  change x (m.withInput input) = _ at same
  rw [same]
  -- The surroundings bring the old limits back, but they never left.
  unfold Exec.final at kept
  cases result : x m with
  | ok a m' =>
      rw [result] at kept
      simp only [mapState, Machine.amid, Machine.withInput, Option.getD_some,
        ← kept, stateOf]
  | error e m' =>
      rw [result] at kept
      simp only [mapState, Machine.amid, Machine.withInput, Option.getD_some,
        ← kept, stateOf]

end Primitive

end Awk
