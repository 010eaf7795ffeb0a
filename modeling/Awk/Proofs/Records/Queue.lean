import Awk.Proofs.Jumps.Rules
import Awk.Proofs.Records.Cut

/-!
# Records as a queue

The rules and `getline` share the cursor of the main input.  The runs of this
module have a queue instead: it holds the records that nobody has taken, and
whoever wants a record takes the first one off.  The input is cut into records
when one is wanted for the first time, the rules are given records until there
are none or the input is left, and a run gives an account of the inputs that it
visited.

`Machine.queued` turns a cursor into a queue.  It remains to show that programs
cannot tell the two apart.
-/

namespace Awk

/-! ## The queue -/

/-- The records behind the cursor as a queue, beside the number of those before
it. -/
def Input.queued (i : Input) : Input :=
  { i with records := i.records.map fun records =>
    (records.toList.drop i.next).toArray }

def Machine.queued (m : Machine) : Machine := m.withInput m.input.queued

namespace Queue

/-- The records that are left.  The input is cut when they are asked for first,
with the separator of that moment; later they are what was not taken. -/
def left : Exec (Option (List String)) := do
  let m ← get
  match m.input.records, m.input.text with
  | some records, _ => return some records.toList
  | none, none => return none
  | none, some text =>
      let lines := (← Exec.recordsWith text m.specials.rs).drop m.input.next
      modify fun m => { m with input := { m.input with
        records := some lines.toArray } }
      return some lines

def keep (rest : List String) : Exec Unit :=
  modify fun m =>
    { m with input := { m.input with
        records := some rest.toArray
        next := m.input.next + 1 } }

/-- Take the first record off.  Without one, give the answer of `getline`: zero
if nothing is left, and minus one if there is no input. -/
def take : Exec (Except Number String) := do
  match ← left with
  | none => return .error (-Number.one)
  | some [] => return .error Number.zero
  | some (record :: rest) =>
      keep rest
      return .ok record

def getline (place : Option (Exec Location)) : Exec Number := do
  match ← take with
  | .error answer => return answer
  | .ok record =>
      storeLine place record
      Exec.countRecord
      return Number.one

/-! ## Programs over a queue -/

def services (run : BodyRunner) : Services :=
  { body := run, nextRecord := getline }

def runBody : (left : Nat) → BodyRunner
  | 0, _ => do Exec.exceed .calls (← get).limits.calls
  | left + 1, f => Stmt.execAll (.limited (services (runBody left))) f.body

def runFunction : BodyRunner := fun f => do runBody (← get).limits.calls.toNat f

def runner : Runner := .limited (services runFunction)

inductive Departure where
  | exhausted
  | exit
  | nextFile
  deriving DecidableEq

/-- An input of a run, with the states in which it was attached, in which the
rules began to be given its records, and in which it was left. -/
structure Visit where
  input : NamedInput
  departure : Departure
  attached : Machine
  opened : Machine
  last : Machine

/-- Give records to the rules until none is left, the program exits, or the
rules ask for the next input.  Every turn takes a record, so that one turn more
than there are records is enough. -/
def drain (p : Program) : (turns : Nat) → Exec Departure
  | 0 => return .exhausted
  | turns + 1 => do
      if ← isExiting then return .exit
      match ← take with
      | .error _ => return .exhausted
      | .ok record =>
          runner.record p record
          if (← get).flow.nextFile then
            modify fun m => { m with flow := { m.flow with nextFile := false } }
            return .nextFile
          else drain p turns

def visit (p : Program) (name : String) : Exec Departure := do
  modify fun m => { m with specials := { m.specials with filename := name } }
  let records := (← left).getD []
  drain p (records.length + 1)

def moreVisits (p : Program) : List NamedInput → Exec (List Visit)
  | [] => return []
  | input :: rest => do
      if ← isExiting then return []
      modify fun m =>
        { m with
          specials := { m.specials with fnr := Number.zero }
          input := { text := some input.text } }
      let attached ← get
      let departure ← visit p input.name
      let last ← get
      let visits ← moreVisits p rest
      return ⟨input, departure, attached, attached, last⟩ :: visits

def program (p : Program) : List NamedInput → Exec (List Visit)
  | [] => do
      runner.begin p
      runner.finish p
      return []
  | first :: rest => do
      modify fun m => { m with input := { text := some first.text } }
      let attached ← get
      runner.begin p
      let opened ← get
      let departure ← if ← isExiting then pure .exit else visit p first.name
      let last ← get
      let visits ← moreVisits p rest
      runner.finish p
      return ⟨first, departure, attached, opened, last⟩ :: visits

def loaded (p : Program) (inputs : List NamedInput) (options : Options) :
    Exec (List Visit) := do
  useOptions options
  load p
  reserveFrames
  program p inputs

end Queue

/-! ## Outcomes over a cursor and over a queue -/

section Mirrors

variable {α β γ δ : Type}

/-- The first outcome is one over a cursor and the second the same over a queue,
with values that are related in the state left behind. -/
inductive Mirrors (R : Machine → α → β → Prop) :
    EStateM.Result Fault Machine α → EStateM.Result Fault Machine β → Prop
  | ok {a : α} {b : β} {m : Machine} (related : R m a b) :
      Mirrors R (.ok a m) (.ok b m.queued)
  | error {e : Fault} {m q : Machine} : Mirrors R (.error e m) (.error e q)

variable {R : Machine → α → β → Prop} {S : Machine → γ → δ → Prop}

theorem Mirrors.of_eq {a : α} {b : β} {m q : Machine} (related : R m a b)
    (same : q = m.queued) : Mirrors R (.ok a m) (.ok b q) := by
  rw [same]
  exact .ok related

theorem Mirrors.imp {R' : Machine → α → β → Prop}
    {r : EStateM.Result Fault Machine α} {r' : EStateM.Result Fault Machine β}
    (h : Mirrors R r r') (weaker : ∀ m a b, r = .ok a m → R m a b → R' m a b) :
    Mirrors R' r r' := by
  cases h with
  | ok related => exact .ok (weaker _ _ _ rfl related)
  | error => exact .error

theorem Mirrors.bind {x : Exec α} {y : Exec β} {f : α → Exec γ} {g : β → Exec δ}
    {m q : Machine} (first : Mirrors R (x m) (y q))
    (next : ∀ a b m', x m = .ok a m' → y q = .ok b m'.queued → R m' a b →
      Mirrors S (f a m') (g b m'.queued)) :
    Mirrors S ((x >>= f) m) ((y >>= g) q) := by
  generalize second : y q = r at first
  cases result : x m with
  | ok a m' =>
      rw [result] at first
      cases first with
      | ok related =>
          rw [Exec.bind_ok result, Exec.bind_ok second]
          exact next _ _ _ result second related
  | error e m' =>
      rw [result] at first
      cases first with
      | error =>
          rw [Exec.bind_error result, Exec.bind_error second]
          exact .error

theorem Mirrors.map {S : Machine → α → δ → Prop} {x : Exec α} {y : Exec β}
    {m q : Machine} (h : Mirrors R (x m) (y q)) (g : β → δ)
    (related : ∀ m' a b, R m' a b → S m' a (g b)) :
    Mirrors S (x m) ((y >>= fun b => pure (g b)) q) := by
  generalize x m = r at h
  generalize second : y q = r' at h
  cases h with
  | ok here =>
      rw [Exec.bind_ok second]
      exact .ok (related _ _ _ here)
  | error =>
      rw [Exec.bind_error second]
      exact .error

end Mirrors

/-! ## What is left, and what is taken -/

theorem Exec.recordsWith_withInput (text separator : String) (m : Machine)
    (input : Input) :
    Exec.recordsWith text separator (m.withInput input) =
      mapState (·.withInput input) (Exec.recordsWith text separator m) :=
  (Exec.recordsWith_primitive (C := Quiet) text separator).withInput
    (fun _ _ step => step.change.limits) (fun _ _ step => step.input) m input

section Records

variable {m : Machine}

theorem Exec.records_of_cut {records : Array String}
    (cut : m.input.records = some records) :
    Exec.records m = .ok (some records) m := by
  unfold Exec.records
  rw [Exec.get_bind_apply, cut]
  rfl

theorem Exec.records_of_absent (uncut : m.input.records = none)
    (absent : m.input.text = none) : Exec.records m = .ok none m := by
  unfold Exec.records
  rw [Exec.get_bind_apply, uncut, absent]
  rfl

theorem Exec.records_of_text {text : String} (uncut : m.input.records = none)
    (attached : m.input.text = some text) :
    Exec.records m =
      match Exec.recordsWith text m.specials.rs m with
      | .ok lines m₁ =>
          .ok (some lines.toArray)
            (m₁.withInput { m₁.input with records := some lines.toArray })
      | .error e m₁ => .error e m₁ := by
  unfold Exec.records
  rw [Exec.get_bind_apply, uncut, attached]
  cases split : Exec.recordsWith text m.specials.rs m with
  | ok lines m₁ => exact Exec.bind_ok split _
  | error e m₁ => exact Exec.bind_error split _

end Records

namespace Queue

variable {m m' : Machine}

theorem left_of_cut {records : Array String}
    (cut : m.input.records = some records) :
    left m = .ok (some records.toList) m := by
  unfold left
  rw [Exec.get_bind_apply, cut]
  rfl

theorem left_of_absent (uncut : m.input.records = none)
    (absent : m.input.text = none) :
    left m = .ok none m := by
  unfold left
  rw [Exec.get_bind_apply, uncut, absent]
  rfl

theorem left_of_text {text : String} (uncut : m.input.records = none)
    (attached : m.input.text = some text) :
    left m =
      match Exec.recordsWith text m.specials.rs m with
      | .ok lines m₁ =>
          let rest := lines.drop m.input.next
          .ok (some rest) (m₁.withInput { m₁.input with
            records := some rest.toArray })
      | .error e m₁ => .error e m₁ := by
  unfold left
  rw [Exec.get_bind_apply, uncut, attached]
  cases split : Exec.recordsWith text m.specials.rs m with
  | ok lines m₁ => exact Exec.bind_ok split _
  | error e m₁ => exact Exec.bind_error split _

/-- What is left of the queue is what is behind the cursor. -/
theorem left_mirrors (m : Machine) :
    Mirrors (fun m' found records =>
        records = found.map (·.toList.drop m'.input.next) ∧
        m'.input.records = found)
      (Exec.records m) (left m.queued) := by
  cases cut : m.input.records with
  | some records =>
      have queued : m.queued.input.records =
          some (records.toList.drop m.input.next).toArray := by
        simp [Machine.queued, Machine.withInput, Input.queued, cut]
      rw [Exec.records_of_cut cut, left_of_cut queued]
      exact .ok ⟨rfl, cut⟩
  | none =>
      have uncut : m.queued.input.records = none := by
        simp [Machine.queued, Machine.withInput, Input.queued, cut]
      cases attached : m.input.text with
      | none =>
          rw [Exec.records_of_absent cut attached,
            left_of_absent uncut attached]
          exact .ok ⟨rfl, cut⟩
      | some text =>
          have same : Exec.recordsWith text m.queued.specials.rs m.queued = _ :=
            Exec.recordsWith_withInput text m.specials.rs m m.input.queued
          have spared :=
            (Exec.recordsWith_primitive (C := Quiet) text
              m.specials.rs).constant (fun _ _ step => step.input) m
          rw [Exec.records_of_text cut attached, left_of_text uncut attached,
            same]
          cases split : Exec.recordsWith text m.specials.rs m with
          | error e m₁ => exact .error
          | ok lines m₁ =>
              rw [Exec.final_ok split] at spared
              refine .of_eq ⟨?_, rfl⟩ ?_
              · simp [Machine.withInput, Machine.queued, Input.queued, spared]
              · simp [Machine.withInput, Machine.queued, Input.queued, spared]

/-! ### The records in order -/

def Took (lines : List String) (taken : Nat) (r : Except Number String)
    (i : Input) : Prop :=
  match lines[taken]? with
  | some record =>
      r = .ok record ∧ i.records = some (lines.drop (taken + 1)).toArray ∧
        i.next = taken + 1
  | none => r = .error Number.zero ∧ i.records = some #[] ∧ i.next = taken

theorem take_later {lines : List String}
    (cut : m.input.records = some (lines.drop m.input.next).toArray) :
    ∃ r input, take m = .ok r (m.withInput input) ∧
      Took lines m.input.next r input := by
  unfold take
  rw [Exec.bind_ok (left_of_cut cut)]
  unfold Took
  cases next : lines[m.input.next]? with
  | none =>
      have nothing : lines.drop m.input.next = [] := by
        simpa using List.getElem?_eq_none_iff.1 next
      rw [nothing] at cut ⊢
      exact ⟨_, m.input, rfl, rfl, cut, rfl⟩
  | some record =>
      obtain ⟨inside, here⟩ := List.getElem?_eq_some_iff.1 next
      rw [List.drop_eq_getElem_cons inside, here]
      exact ⟨_, _, rfl, rfl, rfl, rfl⟩

/-- The first time, the input is cut with the separator of the moment. -/
theorem take_first {text : String} {r : Except Number String}
    (coherent : m.regexes.Coherent) (fresh : m.input = { text := some text })
    (taken : take m = .ok r m') :
    ∃ lines, Splitter.recordsWith Regex.compile text m.specials.rs = .ok lines ∧
      Took lines 0 r m'.input := by
  have uncut : m.input.records = none := by rw [fresh]
  have attached : m.input.text = some text := by rw [fresh]
  have first := left_of_text uncut attached
  cases split : Exec.recordsWith text m.specials.rs m with
  | error e m₁ =>
      rw [split] at first
      unfold take at taken
      rw [Exec.bind_error first] at taken
      contradiction
  | ok lines m₁ =>
      rw [split] at first
      obtain ⟨same, c, -, rfl⟩ := Exec.recordsWith_cases coherent split
      let cut := ({ m with regexes := c } : Machine).withInput
        { m.input with records := some (lines.drop m.input.next).toArray }
      have again : take m = take cut := by
        unfold take
        rw [Exec.bind_ok first, Exec.bind_ok (left_of_cut (m := cut) rfl)]
      have there :
          cut.input.records = some (lines.drop cut.input.next).toArray := rfl
      obtain ⟨r', input, given, took⟩ := take_later there
      rw [again, given] at taken
      cases taken
      have start : m.input.next = 0 := by rw [fresh]
      refine ⟨lines, same, ?_⟩
      rw [← start]
      exact took

end Queue

end Awk
