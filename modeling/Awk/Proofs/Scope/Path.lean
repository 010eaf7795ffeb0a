import Awk.Proofs.Invariant
import Awk.Proofs.Names

/-!
# Paths with their calls and writes

A path leads from one state to another and keeps two records: the calls that are
active at its end, and every write to a name, with the calls that were active
when it was made.  Whatever is evaluated, executed or run continues a path and
ends with the same active calls, also after a fault.
-/

namespace Awk

structure ActiveCall where
  function : Function
  before : Machine

structure Write where
  calls : List ActiveCall
  name : String
  binding : Binding

inductive Writes (m : Machine) (name : String) : Binding → Machine → Prop
  | scalar (v : Value) (free : m.names.arrays.contains name = false) :
      Writes m name (.scalar v) { m with
        names := { m.names with scalars := m.names.scalars.insert name v } }
  | newArray : Writes m name (.array m.names.store.size) { m with
    names := (m.names.newArray name).1 }

structure SameBindings (m m' : Machine) : Prop where
  slot : ∀ name, m'.names.slot name = m.names.slot name
  size : m'.names.store.size = m.names.store.size

/-- Paths from a state, with their writes, the last one first, and the calls
that are active at the end. -/
inductive Reaches (start : Machine) : List Write → List ActiveCall → Machine →
    Prop
  | start : Reaches start [] [] start
  | write {log : List Write} {calls : List ActiveCall} {m m' : Machine}
      {name : String} {b : Binding} (h : Reaches start log calls m)
      (step : Writes m name b m') :
      Reaches start (⟨calls, name, b⟩ :: log) calls m'
  | other {log : List Write} {calls : List ActiveCall} {m m' : Machine}
      (h : Reaches start log calls m) (same : SameBindings m m') :
      Reaches start log calls m'
  | enter {log : List Write} {calls : List ActiveCall} {m : Machine}
      (f : Function) (bindings : List Binding) (h : Reaches start log calls m) :
      Reaches start log (⟨f, m⟩ :: calls) (m.enter f bindings)
  | leave {log : List Write} {calls : List ActiveCall} {c : ActiveCall}
      {m : Machine} (h : Reaches start log (c :: calls) m) :
      Reaches start log calls (c.before.leave c.function m)

/-! ## Steps of a path -/

theorem Writes.slot {m m' : Machine} {name : String} {b : Binding}
    (step : Writes m name b m') (x : String) :
    m'.names.slot x = if x = name then b.slot else m.names.slot x := by
  cases step with
  | scalar v free =>
      rw [Table.contains_eq_isSome, Option.isSome_eq_false_iff,
        Option.isNone_iff_eq_none] at free
      by_cases same : x = name
      · subst same
        simp [Names.slot, Binding.slot, free]
      · simp [Names.slot, same]
  | newArray => exact m.names.slot_newArray name x

theorem SameBindings.of_names {m m' : Machine} (h : m'.names = m.names) :
    SameBindings m m' where
  slot _ := by rw [h]
  size := by rw [h]

/-- Of the elementary changes, two write to a name. -/
theorem Change.writes_or_same {m m' : Machine} (step : Change m m') :
    (∃ name b, Writes m name b m') ∨ SameBindings m m' := by
  cases step with
  | scalar name v ordinary free => exact .inl ⟨name, _, .scalar v free⟩
  | newArray name free => exact .inl ⟨name, _, .newArray⟩
  | elements id t =>
      have size : (m.names.setArray id t).store.size = m.names.store.size :=
        Array.size_setIfInBounds
      exact .inr ⟨fun _ => rfl, size⟩
  | _ => exact .inr (.of_names rfl)

/-! ## Runs continue paths -/

/-- The path goes on to a state; its new writes are made while the calls that
were active still are. -/
def Reaches.ContinuesTo (start : Machine) (log : List Write)
    (calls : List ActiveCall) (m : Machine) : Prop :=
  ∃ more, (∀ w ∈ more, calls <:+ w.calls) ∧ Reaches start (more ++ log) calls m

def Leads (m m' : Machine) : Prop :=
  ∀ start log calls, Reaches start log calls m →
    Reaches.ContinuesTo start log calls m'

theorem SameBindings.leads {m m' : Machine} (same : SameBindings m m') :
    Leads m m' :=
  fun _ _ _ path => ⟨[], nofun, path.other same⟩

theorem Writes.leads {m m' : Machine} {name : String} {b : Binding}
    (step : Writes m name b m') :
    Leads m m' := by
  intro start log calls path
  refine ⟨[⟨calls, name, b⟩], ?_, path.write step⟩
  intro w made
  obtain rfl := List.mem_singleton.1 made
  exact List.suffix_rfl

theorem Leads.trans {m m' m'' : Machine} (first : Leads m m')
    (second : Leads m' m'') : Leads m m'' := by
  intro start log calls path
  obtain ⟨more, inside, path⟩ := first _ _ _ path
  obtain ⟨later, inside', path⟩ := second _ _ _ path
  refine ⟨later ++ more, ?_, by rwa [List.append_assoc]⟩
  intro w made
  rcases List.mem_append.1 made with made | made
  · exact inside' w made
  · exact inside w made

instance : IsPreorder Machine Leads where
  refl _ := SameBindings.leads (.of_names rfl)
  trans _ _ _ := Leads.trans

theorem Change.leads {m m' : Machine} (step : Change m m') : Leads m m' := by
  rcases step.writes_or_same with ⟨name, b, written⟩ | same
  · exact written.leads
  · exact same.leads

/-- What a body does goes on the path inside of the call, and the call is over
at its end. -/
theorem Leads.call {m m' : Machine} (f : Function) (bindings : List Binding)
    (body : Leads (m.enter f bindings) m') : Leads m (m.leave f m') := by
  intro start log calls path
  obtain ⟨more, inside, path⟩ := body _ _ _ (path.enter f bindings)
  refine ⟨more, ?_, path.leave⟩
  intro w made
  exact (List.suffix_cons _ calls).trans (inside w made)

theorem leads_along : Along Leads where
  change := Change.leads
  effect step := SameBindings.leads (by cases step <;> exact .of_names rfl)
  move step := SameBindings.leads (by cases step <;> exact .of_names rfl)
  shift step := SameBindings.leads (by cases step <;> exact .of_names rfl)
  call f bindings body := Leads.call f bindings body
  nest {m m'} inner := by
    have deeper : Leads m m.deeper := SameBindings.leads (.of_names rfl)
    have shallower : Leads m' m'.shallower := SameBindings.leads (.of_names rfl)
    exact (deeper.trans inner).trans shallower

/-- What is evaluated or executed on a path continues it, from rules and from
bodies of functions. -/
theorem Reaches.continues {start m : Machine} {log : List Write}
    {calls : List ActiveCall} (path : Reaches start log calls m)
    (run : BodyRunner) (occurs : run.Occurs) :
    (∀ e : Expr, Reaches.ContinuesTo start log calls ((e.eval run).final m)) ∧
      ∀ s : Stmt, Reaches.ContinuesTo start log calls
        ((s.exec (.limited run)).final m) := by
  constructor
  · intro e
    exact leads_along.eval_keeps run occurs e m start log calls path
  · intro s
    exact leads_along.exec_keeps run occurs s m start log calls path

theorem runLoaded_leads (p : Program) (inputs : List NamedInput)
    (options : Options) :
    Exec.Keeps Leads (runLoaded p inputs options) :=
  leads_along.runLoaded_keeps p inputs options fun _ =>
    SameBindings.leads (.of_names rfl)

theorem Reaches.runLoaded (p : Program) (inputs : List NamedInput)
    (options : Options) (start : Machine) :
    ∃ log, Reaches start log [] ((runLoaded p inputs options).final start) := by
  obtain ⟨log, -, path⟩ :=
    runLoaded_leads p inputs options start start [] [] .start
  exact ⟨log, by simpa using path⟩

end Awk
