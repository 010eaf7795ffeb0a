import Awk.Proofs.Stepwise.Unaware

/-!
# Running step by step

A host may take the steps of a run itself: load the program, run its `BEGIN`
rules, give each record of a text to its rules and run the `END` rules.  For a
program that keeps to its records, this is the run over the text as a main
input, with the same report and the same trace, wherever the program exits and
whatever fault it ends with.
-/

namespace Awk

def runRecords (p : Program) : List String → Exec Unit
  | [] => pure ()
  | text :: rest => do
      runRecord p text
      runRecords p rest

def runText (p : Program) (text : String) : Exec Unit := do
  if ← isExiting then return
  let records ← Exec.recordsWith text (← get).specials.rs
  runRecords p records

def runSteps (p : Program) (text : String) : Exec Unit := do
  load p
  runBegin p
  runText p text
  runEnd p

section Parallel

variable {functions : Table Function} {α β : Type}

def Parallel (functions : Table Function)
    (r r' : EStateM.Result Fault Machine α) : Prop :=
  ∃ input, Unseen functions input r r'

theorem Unseen.bind {x y : Exec α} {f g : α → Exec β} {m m' : Machine}
    {input : Input} (first : Unseen functions input (x m) (y m'))
    (next : ∀ a s, x m = .ok a s → Settled functions s →
      Parallel functions (f a s) (g a (s.withInput input))) :
    Parallel functions ((x >>= f) m) ((y >>= g) m') := by
  obtain ⟨same, settled⟩ := first
  cases result : x m with
  | ok a s =>
      rw [result] at same settled
      rw [Exec.bind_ok result, Exec.bind_ok same]
      exact next a s result settled
  | error e s =>
      rw [result] at same settled
      rw [Exec.bind_error result, Exec.bind_error same]
      exact ⟨input, rfl, settled⟩

end Parallel

/-! ## The records -/

section Records

variable {p : Program}

theorem runRecords_exiting {m : Machine} (exiting : m.flow.exiting = true)
    (records : List String) :
    runRecords p records m = .ok () m := by
  induction records with
  | nil => rfl
  | cons text rest ih =>
      have passed : runRecord p text m = .ok () m := by
        change (if m.flow.exiting = true then pure () else _ : Exec Unit) m = _
        rw [if_pos exiting]
        rfl
      rw [runRecords, Exec.bind_ok passed, ih]

variable (keeps : p.KeepsToRecords)

include keeps

omit keeps in
theorem recordTurn_next {run : Runner} {records : Array String} {m : Machine}
    {text : String} (going : m.flow.exiting = false)
    (next : records[m.input.next]? = some text) :
    run.recordTurn p records m = run.takeRecord p text m.passed := by
  rw [recordTurn_apply, going, next]
  rfl

theorem takeRecord_unseen (text : String) {m : Machine}
    (settled : Settled p.table m) (input : Input) :
    Unseen p.table input ((do runRecord p text; return true : Exec Bool) m)
      (Runner.standard.takeRecord p text (m.withInput input)) := by
  obtain ⟨same, settled⟩ := record_unaware keeps text m input settled
  change Runner.standard.record p text (m.withInput input) = _ at same
  unfold Runner.takeRecord
  cases ran : runRecord p text m with
  | error e s =>
      rw [ran] at same settled
      rw [Exec.bind_error ran, Exec.bind_error same]
      exact ⟨rfl, settled⟩
  | ok u s =>
      rw [ran] at same settled
      rw [Exec.bind_ok ran, Exec.bind_ok same]
      have here : s.flow.nextFile = false := settled.here
      refine ⟨?_, settled⟩
      change (if s.flow.nextFile = true then _ else _ : Exec Bool)
        (s.withInput input) = _
      rw [if_neg (Bool.eq_false_iff.1 here)]
      rfl

/-- The record loop, from the cursor on. -/
theorem recordTurns_parallel {records : Array String} {rest : List String}
    {input : Input} (left : records.toList.drop input.next = rest) {m : Machine}
    (settled : Settled p.table m) :
    Parallel p.table (runRecords p rest m)
      (recordTurns (Runner.standard.recordTurn p records) rest.length
        (m.withInput input)) := by
  induction rest generalizing m input with
  | nil => exact ⟨input, rfl, settled⟩
  | cons text rest ih =>
      cases exiting : (m.withInput input).flow.exiting with
      | true =>
          have stops :
              Runner.standard.recordTurn p records (m.withInput input) =
                .ok false (m.withInput input) := by
            rw [recordTurn_apply, exiting]
            rfl
          have exits : m.flow.exiting = true := exiting
          rw [runRecords_exiting exits, List.length_cons, recordTurns,
            Exec.bind_ok stops]
          exact ⟨input, rfl, settled⟩
      | false =>
          have next : records[(m.withInput input).input.next]? = some text := by
            rw [← Array.getElem?_toList, ← List.head?_drop]
            change (records.toList.drop input.next).head? = _
            rw [left]
            rfl
          have later : records.toList.drop (input.next + 1) = rest := by
            rw [← List.drop_drop, left]
            rfl
          have turn := takeRecord_unseen keeps text settled { input with
            next := input.next + 1 }
          change Unseen _ _ _ (Runner.standard.takeRecord p text
            (m.withInput input).passed) at turn
          rw [← recordTurn_next exiting next] at turn
          have given : runRecords p (text :: rest) =
              (do runRecord p text; return true : Exec Bool) >>= fun again =>
                if again then runRecords p rest else pure () := by
            rw [runRecords, bind_assoc]
            rfl
          rw [given, List.length_cons, recordTurns]
          refine turn.bind fun again s ran settled => ?_
          cases again with
          | true => exact ih later settled
          | false => exact ⟨_, rfl, settled⟩

theorem input_parallel (text : String) {m : Machine}
    (settled : Settled p.table m) :
    Parallel p.table ((Exec.recordsWith text m.specials.rs >>= runRecords p) m)
      (Runner.standard.input p "" (m.withInput { text := some text })) := by
  have opened : Runner.standard.input p "" (m.withInput { text := some text }) =
      (do
        let records := (← Exec.records).getD #[]
        recordTurns (Runner.standard.recordTurn p records) records.size :
        Exec Unit) (m.withInput { text := some text }) := by
    have named :
        (modify fun m => { m with specials := { m.specials with
          filename := "" } } : Exec Unit) (m.withInput { text := some text }) =
          .ok () (m.withInput { text := some text }) := by
      rw [← settled.filename]
      rfl
    exact Exec.bind_ok named _
  have cut : Unaware p.table _ (Exec.recordsWith text m.specials.rs) _ :=
    unaware_sequential.primitive (Exec.recordsWith_primitive text m.specials.rs)
  obtain ⟨same, settled⟩ := cut m { text := some text } settled
  have kept : Exec.records (m.withInput { text := some text }) =
      (do
        let records := (← Exec.recordsWith text m.specials.rs).toArray
        modify fun m => { m with input := { m.input with
          records := some records } }
        return some records :
          Exec (Option (Array String))) (m.withInput { text := some text }) :=
          rfl
  rw [opened]
  cases result : Exec.recordsWith text m.specials.rs m with
  | error e s =>
      rw [result] at same settled
      rw [Exec.bind_error same] at kept
      rw [Exec.bind_error result, Exec.bind_error kept]
      exact ⟨_, rfl, settled⟩
  | ok records s =>
      rw [result] at same settled
      rw [Exec.bind_ok same] at kept
      rw [Exec.bind_ok result, Exec.bind_ok kept]
      have left :
          records.toArray.toList.drop
            (Input.mk (some text) (some records.toArray) 0).next = records :=
        rfl
      exact recordTurns_parallel keeps left settled

theorem inputs_parallel (text : String) {m : Machine}
    (settled : Settled p.table m) :
    Parallel p.table (runText p text m)
      (Runner.standard.inputs p [⟨"", text⟩]
        (m.withInput { text := some text })) := by
  rw [runText, Runner.inputs, ifExiting_apply, ifExiting_apply]
  change Parallel _ (if m.flow.exiting = true then _ else _)
    (if m.flow.exiting = true then _ else _)
  split
  · exact ⟨_, rfl, settled⟩
  · obtain ⟨input, taken⟩ := input_parallel keeps text settled
    have whole :
        Parallel p.table ((Exec.recordsWith text m.specials.rs >>=
          runRecords p >>= fun _ => pure ()) m)
          ((Runner.standard.input p "" >>= fun _ => pure ())
            (m.withInput { text := some text })) :=
      taken.bind fun _ s _ settled => ⟨_, rfl, settled⟩
    rw [bind_pure_unit] at whole
    exact whole

end Records

/-! ## The whole run -/

theorem Ending.ofResult_withInput (r : EStateM.Result Fault Machine Unit)
    (input : Input) :
    Ending.ofResult (mapState (·.withInput input) r) = Ending.ofResult r := by
  cases r with
  | ok a m => rfl
  | error e m => cases e <;> rfl

section Run

variable {p : Program}

theorem settled_of_used {options : Options}
    (presets : ∀ preset ∈ options.presets.entries, preset.1 ≠ "FILENAME")
    {host : Host} {m m' : Machine}
    (used : useOptions options (startMachine options host) = .ok () m)
    (loaded : load p m = .ok () m') : Settled p.table m' := by
  have assigned : ∀ presets : List (String × String),
      (∀ preset ∈ presets, preset.1 ≠ "FILENAME") →
      Primitive Aside (assignAll presets) := by
    intro presets unnamed
    induction presets with
    | nil => exact .pure ()
    | cons preset rest ih =>
        rw [List.forall_mem_cons] at unnamed
        exact (assignVariable_aside unnamed.1 _).bind fun _ => ih unnamed.2
  have separators : Primitive Aside (modify fun m => { m with
    specials := options.specials m.specials }) :=
    setSpecials_aside options.specials fun _ => rfl
  have beside :=
    ((separators.bind fun _ => assigned _ presets).keeps fun _ _ =>
      Aside.beside).of_ok used
  cases loaded
  have start : Settled {} (startMachine options host) := ⟨rfl, rfl, rfl⟩
  have settled := start.beside beside
  exact ⟨congrArg (p.functions.foldl (fun t f => t.insert f.name f))
    settled.functions, settled.filename, settled.here⟩

/-- The run over one input is the steps, once the program is loaded. -/
theorem program_parallel (keeps : p.KeepsToRecords) (text : String)
    {m : Machine} (settled : Settled p.table m) :
    Parallel p.table ((do runBegin p; runText p text; runEnd p : Exec Unit) m)
      (runProgram p [⟨"", text⟩] m) := by
  have attached : runProgram p [⟨"", text⟩] m =
      (do
        runBegin p
        Runner.standard.inputs p [⟨"", text⟩]
        runEnd p : Exec Unit) (m.withInput { text := some text }) := rfl
  rw [attached]
  refine (begin_unaware keeps m _ settled).bind fun _ s _ settled => ?_
  obtain ⟨input, taken⟩ := inputs_parallel keeps text settled
  exact taken.bind fun _ s' _ settled => ⟨_, finish_unaware keeps s' _ settled⟩

/-- A program without `getline` and `nextfile` that does not assign `FILENAME`,
run over a text, reports what the steps of the run report once the stack is
reserved: the same output, exit code, redirections and error, and the same
trace. -/
theorem run_eq_steps (keeps : p.KeepsToRecords) (text : String)
    (options : Options) (presets : ∀ preset ∈ options.presets.entries,
      preset.1 ≠ "FILENAME") (host : Host) :
    Ending.ofResult (runLoaded p [⟨"", text⟩] options
      (startMachine options host)) =
      Ending.ofResult
        ((do useOptions options; reserveFrames; runSteps p text : Exec Unit)
        (startMachine options host)) := by
  cases used : useOptions options (startMachine options host) with
  | error e m =>
      unfold runLoaded Runner.loaded
      rw [Exec.bind_error used, Exec.bind_error used]
  | ok u m =>
      have reserved := reserveFrames_apply m
      rw [useOptions_limits used] at reserved
      rw [runLoaded, loaded_apply used, Exec.bind_ok used]
      by_cases excess :
        maxFrames < framesFor (startMachine options host).limits.calls
      · rw [if_pos excess] at reserved
        rw [if_pos excess, Exec.bind_error reserved]
        rfl
      · rw [if_neg excess] at reserved
        rw [if_neg excess, Exec.bind_ok reserved]
        have loaded : load p m = .ok () ((load p).final m) := rfl
        obtain ⟨input, same, -⟩ :=
          program_parallel keeps text (settled_of_used presets used loaded)
        rw [runSteps, Exec.bind_ok loaded]
        exact (congrArg Ending.ofResult same).trans
          (Ending.ofResult_withInput _ input)

/-- A program that sets the separator, prints its records and exits from a
function at the second one. -/
theorem exit_in_second_record_eq_steps :
    let p : Program :=
      { rules :=
          [⟨.begin, [.expr (.assign none (.variable "RS") (.string ";"))]⟩,
            ⟨.always, [.print [] none,
              .expr (.call "f" [.read (.variable "NR")])]⟩,
            ⟨.finish, [.print [.read (.variable "NR")] none]⟩]
        functions :=
          [⟨"f", ["n"],
            [.ifElse (.binary (.comparison .eq) (.read (.variable "n"))
              (.number (Number.ofNat 2)))
              (.exit (some (.number (Number.ofNat 3)))) none]⟩] }
    p.KeepsToRecords ∧
    Ending.ofResult (runLoaded p [⟨"", "a;b;c"⟩] {} (startMachine {} {})) =
      Ending.ofResult
      ((do useOptions {}; reserveFrames; runSteps p "a;b;c" : Exec Unit)
        (startMachine {} {})) := by
  intro p
  have keeps : p.KeepsToRecords := by decide
  exact ⟨keeps, run_eq_steps keeps "a;b;c" {} nofun {}⟩

end Run

end Awk
