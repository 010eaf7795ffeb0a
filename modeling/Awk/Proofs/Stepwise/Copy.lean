import Awk.Proofs.Counting
import Awk.Proofs.Source.Nesting
import Awk.Proofs.Stepwise.Run
import Awk.Proofs.Text.Pieces

/-!
# The copying program

A text is cut into records at a character, and one empty record at its end is
dropped.  So writing the records, each with the character behind it, gives the
text back, closed with the character if it was not.  The program that prints
every record does this, since cutting a record into fields and counting it do
not get in its way.
-/

namespace Awk

/-! ## Closing pieces with a character -/

namespace Text

theorem flatMap_splitOnFrom (c : Char) (piece cs : List Char) :
    (splitOnFrom c piece cs).flatMap (· ++ [c]) = piece.reverse ++ cs ++
      [c] := by
  induction cs generalizing piece with
  | nil => simp [splitOnFrom]
  | cons x rest ih =>
      by_cases here : x = c
      · simp [splitOnFrom, here, ih]
      · simp [splitOnFrom, here, ih]

theorem splitOnFrom_ne_nil (c : Char) (piece cs : List Char) :
    splitOnFrom c piece cs ≠ [] := by
  intro none
  have := flatMap_splitOnFrom c piece cs
  simp [none] at this

theorem splitOn_eq_concat (c : Char) (cs : List Char) :
    ∃ pieces last, splitOn c cs = pieces ++ [last] ∧
    cs = pieces.flatMap (· ++ [c]) ++ last := by
  obtain none | ⟨pieces, last, split⟩ := List.eq_nil_or_concat (splitOn c cs)
  · exact absurd none (splitOnFrom_ne_nil c [] cs)
  · rw [List.concat_eq_append] at split
    refine ⟨pieces, last, split, ?_⟩
    have whole := flatMap_splitOnFrom c [] cs
    change (splitOn c cs).flatMap _ = _ at whole
    rw [split] at whole
    simpa [← List.append_assoc] using whole.symm

/-- A text with a character at its end, unless it is there or the text is
empty. -/
def closeWith (c : Char) (text : String) : String :=
  if text = "" ∨ text.toList.getLast? = some c then text else text.push c

def closedWith (c : Char) : List String → String
  | [] => ""
  | text :: rest => text ++ String.singleton c ++ closedWith c rest

theorem toList_closedWith (c : Char) (texts : List String) :
    (closedWith c texts).toList = (texts.map String.toList).flatMap
      (· ++ [c]) := by
  induction texts with
  | nil => rfl
  | cons text rest ih => simp [closedWith, ih]

/-- Of what a text is cut into at a character, nothing but the character is
lost. -/
theorem closedWith_records (c : Char) (text : String) :
    closedWith c ((Splitter.literal [c]).records text) = closeWith c text := by
  by_cases written : text = ""
  · subst written
    rfl
  obtain ⟨pieces, last, split, whole⟩ := splitOn_eq_concat c text.toList
  have clean : c ∉ last := by
    have isPiece : last ∈ splitOn c text.toList := by simp [split]
    exact not_mem_splitOn isPiece
  have cut : (Splitter.literal [c]).split text = pieces.map String.ofList ++
      [String.ofList last] := by
    simp [split_literal written, split]
  rw [← String.toList_inj, toList_closedWith, Splitter.records, dropLastEmpty,
    cut]
  cases last with
  | nil =>
      rw [List.append_nil] at whole
      have ends : text.toList.getLast? = some c := by
        obtain rfl | ⟨init, piece, rfl⟩ := List.eq_nil_or_concat pieces
        · exact absurd (String.toList_inj.1 whole) written
        · simp [whole]
      simp [closeWith, ends, Function.comp_def, whole.symm]
  | cons d rest =>
      have goesOn : text.toList.getLast? ≠ some c := by
        intro ends
        rw [whole, List.getLast?_append_of_ne_nil _ (List.cons_ne_nil d rest)]
          at ends
        exact clean (List.mem_of_getLast? ends)
      have closed : closeWith c text = text.push c := by
        simp [closeWith, written, goesOn]
      simp [closed, Function.comp_def, whole]

theorem not_mem_records {c : Char} {text record : String}
    (isRecord : record ∈ (Splitter.literal [c]).records text) :
    c ∉ record.toList := by
  have isPiece : record ∈ (Splitter.literal [c]).split text := by
    rw [Splitter.records, dropLastEmpty] at isRecord
    split at isRecord
    · exact List.dropLast_subset _ isRecord
    · exact isRecord
  exact not_mem_split isPiece

end Text

/-! ## One record -/

def copying : Program := ⟨[⟨.always, [.print [] none]⟩], []⟩

/-- Both separators are a character, fields are cut without a pattern, and
records can be counted. -/
structure CopiesAt (c : Char) (m : Machine) : Prop where
  rs : m.specials.rs = String.singleton c
  ors : m.specials.ors = String.singleton c
  plain : (Splitter.ofFieldSeparator? m.specials.fs).isSome
  finite : m.specials.nr.truncate?.isSome

theorem setLine_plain {text : String} {m : Machine}
    (plain : (Splitter.ofFieldSeparator? m.specials.fs).isSome) :
    ∃ fields, Exec.setLine text m = .ok () { m with
      record := ⟨text, fields⟩ } := by
  obtain ⟨s, simple⟩ := Option.isSome_iff_exists.1 plain
  by_cases blank : text = ""
  · subst blank
    exact ⟨[], rfl⟩
  · refine ⟨s.split text, ?_⟩
    have cut : Exec.splitWith text m.specials.fs = pure (s.split text) := by
      rw [Exec.splitWith, if_neg blank]
      simp only [simple]
    have step : Exec.setLine text m =
        (Exec.splitWith text m.specials.fs >>= fun fields =>
        modify fun m => { m with record := { m.record with fields := fields } })
          { m with record := { m.record with line := text } } := rfl
    rw [step, cut]
    rfl

theorem noteRule_finite (index : Nat) {m : Machine}
    (finite : m.specials.nr.truncate?.isSome) :
    ∃ lines, noteRule index m = .ok () { m with
      trace := { m.trace with lines := lines } } := by
  obtain ⟨n, number⟩ := Option.isSome_iff_exists.1 finite
  have noted : noteRule index m = Exec.note ["RULE", toString index,
      "matched record", toString n] m := by
    rw [noteRule, Exec.get_bind_apply]
    simp only [number]
  rw [noted]
  unfold Exec.note
  cases tracing : m.trace.enabled with
  | true =>
      change ∃ lines, EStateM.Result.ok () (if m.trace.enabled = true
        then _ else _) = _
      rw [if_pos tracing]
      exact ⟨_, rfl⟩
  | false =>
      change ∃ lines, EStateM.Result.ok () (if m.trace.enabled = true
        then _ else _) = _
      rw [if_neg (by simp [tracing])]
      exact ⟨m.trace.lines, rfl⟩

theorem execAll_print {m : Machine} (calm : m.flow = {}) :
    Stmt.execAll .standard [.print [] none] m =
    .ok () { m with output :=
      m.output.write (m.record.line ++ m.specials.ors) } := by
  have uninterrupted : m.flow.interrupted = false := by rw [calm]; rfl
  change (if m.flow.interrupted = true then pure () else _ : Exec Unit) m = _
  rw [if_neg (by simp [uninterrupted])]
  rfl

theorem recordRules_copying {m : Machine} (calm : m.flow = {})
    (finite : m.specials.nr.truncate?.isSome) :
    ∃ lines, Runner.standard.recordRules 0 copying.rules m = .ok () { m with
      trace := { m.trace with lines := lines }
      output := m.output.write (m.record.line ++ m.specials.ors) } := by
  obtain ⟨lines, noted⟩ := noteRule_finite 0 finite
  refine ⟨lines, ?_⟩
  have applied : Runner.standard.recordRules 0 copying.rules m =
      (do
        noteRule 0
        Stmt.execAll .standard [.print [] none]
        Runner.standard.recordRules 1 [] : Exec Unit) m := by
    change (if (m.flow.exiting || m.flow.next || m.flow.nextFile) = true
      then pure () else _ : Exec Unit) m = _
    rw [if_neg (by simp [calm])]
    rfl
  have calm' : { m with trace := { m.trace with lines := lines } }.flow = {} :=
    calm
  rw [applied, Exec.bind_ok noted, Exec.bind_ok (execAll_print calm')]
  rfl

theorem runRecord_copying {c : Char} {m : Machine} (record : String)
    (copies : CopiesAt c m) (calm : m.flow = {}) :
    ∃ m', runRecord copying record m = .ok () m' ∧ CopiesAt c m' ∧
    m'.flow = {} ∧
      m'.output = m.output.write (record ++ String.singleton c) := by
  have going : m.flow.exiting = false := by rw [calm]
  have staged : runRecord copying record m =
      (do
        Exec.setLine record
        Exec.countRecord
        modify fun m => { m with flow := { m.flow with next := false } }
        Runner.standard.recordRules 0 copying.rules :
        Exec Unit) { m with stage := .main } := by
    change (if m.flow.exiting = true then pure () else _ : Exec Unit) m = _
    rw [if_neg (by simp [going])]
    rfl
  obtain ⟨fields, cut⟩ : ∃ fields, Exec.setLine record { m with
    stage := .main } = .ok () _ :=
    setLine_plain copies.plain
  rw [staged, Exec.bind_ok cut]
  have counted := Number.truncate?_add_one copies.finite
  let m₁ : Machine := { m with
    stage := .main
    record := ⟨record, fields⟩
    specials := { m.specials with nr := m.specials.nr + Number.one,
                                  fnr := m.specials.fnr + Number.one }
    flow := { m.flow with next := false } }
  have calm₁ : m₁.flow = {} := by
    change { m.flow with next := false } = _
    rw [calm]
  obtain ⟨lines, printed⟩ := recordRules_copying calm₁ counted
  refine ⟨_, printed, ⟨copies.rs, copies.ors, copies.plain, counted⟩, calm₁, ?_⟩
  rw [← copies.ors]

/-! ## The whole run -/

theorem runRecords_copying {c : Char} {m : Machine} (records : List String)
    (copies : CopiesAt c m) (calm : m.flow = {}) :
    ∃ m', runRecords copying records m = .ok () m' ∧ m'.flow = {} ∧
      m'.output = m.output.write (Text.closedWith c records) := by
  induction records generalizing m with
  | nil => exact ⟨m, rfl, calm, by simp [Output.write, Text.closedWith]⟩
  | cons record rest ih =>
      obtain ⟨m₁, ran, copies₁, calm₁, written₁⟩ :=
        runRecord_copying record copies calm
      obtain ⟨m₂, others, calm₂, written₂⟩ := ih copies₁ calm₁
      refine ⟨m₂, ?_, calm₂, ?_⟩
      · rw [runRecords, Exec.bind_ok ran, others]
      · rw [written₂, written₁]
        simp [Output.write, Text.closedWith, String.append_assoc]

theorem recordsWith_singleton (c : Char) (text : String) :
    Exec.recordsWith text (String.singleton c) =
      pure ((Splitter.literal [c]).records text) := by
  by_cases blank : text = ""
  · subst blank
    rfl
  · have single : Splitter.ofRecordSeparator? (String.singleton c) =
        some (.literal [c]) := by
      simp [Splitter.ofRecordSeparator?]
    rw [Exec.recordsWith, if_neg blank, if_neg (by simp)]
    simp only [single]

theorem runText_copying {c : Char} {m : Machine} (text : String)
    (copies : CopiesAt c m) (calm : m.flow = {}) :
    runText copying text m = runRecords copying
      ((Splitter.literal [c]).records text) m := by
  have going : m.flow.exiting = false := by rw [calm]
  rw [runText, ifExiting_apply, if_neg (by simp [going]), Exec.get_bind_apply,
    copies.rs, recordsWith_singleton]
  rfl

theorem runEnd_copying {m : Machine} (calm : m.flow = {}) :
    ∃ m', runEnd copying m = .ok () m' ∧ m'.output = m.output := by
  have going : m.flow.atEnd.exiting = false := by rw [calm]; rfl
  have ended : Runner.standard.endRules copying.rules { m with
    stage := .finish, flow := m.flow.atEnd } = .ok () { m with
      stage := .finish, flow := m.flow.atEnd } := by
    change (if m.flow.atEnd.exiting = true then pure () else _ : Exec Unit) _ =
      _
    rw [if_neg (by simp [going])]
    rfl
  have steps : runEnd copying m =
      (do Runner.standard.endRules copying.rules; setStage .done : Exec Unit)
      { m with stage := .finish, flow := m.flow.atEnd } := rfl
  rw [steps, Exec.bind_ok ended]
  exact ⟨_, rfl, rfl⟩

theorem steps_copying {c : Char} {m : Machine} (text : String)
    (copies : CopiesAt c m) (calm : m.flow = {}) :
    ∃ m',
    (do runBegin copying; runText copying text; runEnd copying : Exec Unit) m =
      .ok () m' ∧
      (do
        runBegin copying
        runRecords copying ((Splitter.literal [c]).records text)
        runEnd copying : Exec Unit) m = .ok () m' ∧
      m'.output = m.output.write (Text.closeWith c text) := by
  have begun : runBegin copying m = .ok () { m with stage := .begin } := rfl
  have copies₁ : CopiesAt c { m with stage := .begin } :=
    ⟨copies.rs, copies.ors, copies.plain, copies.finite⟩
  have calm₁ : { m with stage := Stage.begin }.flow = {} := calm
  obtain ⟨m₂, ran, calm₂, written⟩ :=
    runRecords_copying ((Splitter.literal [c]).records text) copies₁ calm₁
  obtain ⟨m₃, ended, same⟩ := runEnd_copying calm₂
  have cut := (runText_copying text copies₁ calm₁).trans ran
  refine ⟨m₃, ?_, ?_, ?_⟩
  · rw [Exec.bind_ok begun, Exec.bind_ok cut, ended]
  · rw [Exec.bind_ok begun, Exec.bind_ok ran, ended]
  · rw [same, written, Text.closedWith_records]

def Program.isCopying : Program → Bool
  | ⟨[⟨.always, [.print [] none]⟩], []⟩ => true
  | _ => false

theorem Program.eq_copying_of_isCopying {p : Program}
    (is : p.isCopying = true) : p = copying := by
  unfold Program.isCopying at is
  split at is
  · rfl
  · contradiction

/-- Five levels are enough: in the statement, four levels of an expression are
tried behind the word. -/
theorem parse_copying {nesting : Nat} (deep : 5 ≤ nesting) :
    Program.parse "\x7b print \x7d" nesting = .ok copying := by
  refine Source.parse_of_le deep ?_
  have parsed : (Program.parse "\x7b print \x7d" 5).toOption.any
      Program.isCopying = true := by
    decide +kernel
  cases result : Program.parse "\x7b print \x7d" 5 with
  | error e =>
      rw [result] at parsed
      contradiction
  | ok p =>
      rw [result] at parsed
      rw [Program.eq_copying_of_isCopying parsed]

structure Untouched (m m' : Machine) : Prop where
  functions : m'.functions = m.functions
  flow : m'.flow = m.flow
  redirects : m'.output.redirects = m.output.redirects
  exitCode : m'.output.exitCode = m.output.exitCode

instance : IsPreorder Machine Untouched where
  refl _ := ⟨rfl, rfl, rfl, rfl⟩
  trans _ _ _ h₁ h₂ := ⟨h₂.functions.trans h₁.functions, h₂.flow.trans h₁.flow,
    h₂.redirects.trans h₁.redirects, h₂.exitCode.trans h₁.exitCode⟩

theorem Change.untouched {m m' : Machine} (step : Change m m') :
    Untouched m m' := by
  cases step <;> exact ⟨rfl, rfl, rfl, rfl⟩

/-- Over any text, the copying program with a character as both separators
writes the text, closed with the character if it is neither empty nor closed,
wherever its five levels may nest and the stack can be reserved.  The run is
that of the steps for some records, and the character is in none of them. -/
theorem copying_program_copies {c : Char} {options : Options} {host : Host}
    {m : Machine} (deep : 5 ≤ host.platform.nesting)
    (frames : framesFor options.maxCalls ≤ maxFrames)
    (used : useOptions options (startMachine options host) = .ok () m)
    (copies : CopiesAt c m) (unnamed : m.specials.filename = "")
    (text : String) :
    (runOn "\x7b print \x7d" (some text) options host).result =
        .ok { output := Text.closeWith c text } ∧
      ∃ p records, Program.parse "\x7b print \x7d" host.platform.nesting =
        .ok p ∧
        (∀ record ∈ records, c ∉ record.toList) ∧
        runOn "\x7b print \x7d" (some text) options host =
          .ofResult ((do
            useOptions options
            load p
            runBegin p
            runRecords p records
            runEnd p : Exec Unit) (startMachine options host)) := by
  have untouched :=
    ((useOptions_primitive options).keeps fun _ _ => Change.untouched).of_ok
      used
  obtain ⟨m₁, loaded, output, settled, calm, copies₁⟩ :
      ∃ m₁, load copying m = .ok () m₁ ∧ m₁.output = { m.output with
        text := "" } ∧ Settled copying.table m₁ ∧ m₁.flow = {} ∧
      CopiesAt c m₁ :=
    ⟨_, rfl, rfl, ⟨untouched.functions, unnamed,
      congrArg Flow.nextFile untouched.flow⟩, untouched.flow, copies.rs,
      copies.ors, copies.plain, copies.finite⟩
  obtain ⟨m₂, steps, given, written⟩ := steps_copying text copies₁ calm
  obtain ⟨input, same, -⟩ :=
    program_parallel (by decide : copying.KeepsToRecords) text settled
  have ran : runOn "\x7b print \x7d" (some text) options host =
      .ofResult (.ok () m₂) := by
    have whole : runLoaded copying [⟨"", text⟩] options
        (startMachine options host) = runProgram copying [⟨"", text⟩] m₁ := by
      have enough :
          ¬maxFrames < framesFor (startMachine options host).limits.calls :=
        Int.not_lt.2 frames
      rw [runLoaded, loaded_apply used, if_neg enough, Exec.final_ok loaded]
      rfl
    rw [steps] at same
    rw [runOn, runScript, parse_copying deep]
    change Ending.ofResult (runLoaded copying [⟨"",
      text⟩] options (startMachine options host)) = _
    rw [whole, same, Ending.ofResult_withInput]
  refine ⟨?_, copying, (Splitter.literal [c]).records text, parse_copying deep,
    fun _ => Text.not_mem_records, ?_⟩
  · rw [ran]
    change Except.ok (Report.ofMachine m₂ m₂.output.exitCode) = _
    rw [Report.ofMachine, written, output, Output.write]
    dsimp only
    rw [untouched.redirects, untouched.exitCode, String.empty_append]
    rfl
  · rw [ran, Exec.bind_ok used, Exec.bind_ok loaded, given]

/-- The separators are assigned as variables, and the text has empty records at
its start, in the middle and at its end. -/
theorem empty_records_copied :
    let options : Options := { presets := .ofList [("RS", ";"), ("ORS", ";")] }
    let host : Host := {}
    let text := ";a b;;c;;"
    (runOn "\x7b print \x7d" (some text) options host).result =
      .ok { output := text } ∧ ∃ p records,
    Program.parse "\x7b print \x7d" host.platform.nesting = .ok p ∧
    (∀ record ∈ records, ';' ∉ record.toList) ∧
    runOn "\x7b print \x7d" (some text) options host = .ofResult ((do
            useOptions options
            load p
            runBegin p
            runRecords p records
            runEnd p : Exec Unit) (startMachine options host)) := by
  intro options host text
  obtain ⟨m, used, rs, ors, fs, nr, filename⟩ :
      ∃ m, useOptions options (startMachine options host) = .ok () m ∧
      m.specials.rs = String.singleton ';' ∧
      m.specials.ors = String.singleton ';' ∧ m.specials.fs = " " ∧
      m.specials.nr = Number.zero ∧ m.specials.filename = "" :=
    ⟨_, rfl, by decide, by decide, rfl, rfl, rfl⟩
  have closed : Text.closeWith ';' text = text := by decide
  have deep : 5 ≤ host.platform.nesting := by decide
  have copied := copying_program_copies deep (by decide) used
    ⟨rs, ors, by rw [fs]; decide, by rw [nr]; decide⟩ filename text
  rwa [closed] at copied

end Awk
