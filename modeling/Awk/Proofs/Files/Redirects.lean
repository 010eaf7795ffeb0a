import Awk.Proofs.Computation
import Awk.Proofs.Table
import Mathlib.Data.List.Induction

/-!
# Redirections as files

Writes to targets and closings of targets, in any order, leave under each target
what a file would hold.  Whether a write empties its target is decided by the
set of open targets; that set is determined by the past: a target is open if
something was written to it after it was last closed.  The main statement says
what a target holds in terms of the past alone.
-/

namespace Awk

inductive Access where
  | write (target text : String) (append : Bool)
  | close (target : String)
  deriving DecidableEq, Repr

namespace Access

def target : Access → String
  | .write target _ _ => target
  | .close target => target

def textTo? (target : String) : Access → Option String
  | .write t text _ => if t = target then some text else none
  | .close _ => none

def perform : Access → Exec Unit
  | .write target text append => Exec.emitTo target text append
  | .close target => do
      let _ ← Exec.closeTarget target

def performAll : List Access → Exec Unit
  | [] => pure ()
  | a :: rest => do
      a.perform
      performAll rest

def textsTo (target : String) (accesses : List Access) : List String :=
  accesses.filterMap (textTo? target)

def WritesTo (a : Access) (target : String) : Prop :=
  ∃ text append, a = .write target text append

def Written (accesses : List Access) (target : String) : Prop :=
  ∃ a ∈ accesses, a.WritesTo target

def OpenAfter (past : List Access) (target : String) : Prop :=
  ∃ before a after, past = before ++ a :: after ∧ a.WritesTo target ∧
    .close target ∉ after

def Truncates (target : String) (past rest : List Access) : Prop :=
  ¬OpenAfter past target ∧ ∃ text after, rest = .write target text false ::
    after

/-- `rest` goes from the last truncating write on, or is everything if there is
none. -/
structure FromTruncation (target : String) (past rest : List Access) :
    Prop where
  start : past = [] ∨ Truncates target past rest
  last : ∀ middle later, middle ≠ [] → rest = middle ++ later →
    ¬Truncates target (past ++ middle) later

/-! ## The past of a target -/

theorem parted_concat {accesses before after : List Access} {a b : Access}
    (parted : accesses ++ [a] = before ++ b :: after) :
    (before = accesses ∧ b = a ∧ after = []) ∨
      ∃ after', after = after' ++ [a] ∧ accesses = before ++ b :: after' := by
  rcases List.eq_nil_or_concat after with rfl | ⟨after, c, rfl⟩
  · obtain ⟨rfl, same⟩ := List.append_inj' parted rfl
    exact .inl ⟨rfl, (List.singleton_inj.1 same).symm, rfl⟩
  · have regrouped : accesses ++ [a] = (before ++ b :: after) ++ [c] := by
      simpa using parted
    obtain ⟨rfl, same⟩ := List.append_inj' regrouped rfl
    obtain rfl := List.singleton_inj.1 same
    exact .inr ⟨after, List.concat_eq_append, rfl⟩

theorem not_openAfter_nil (target : String) : ¬OpenAfter [] target := by
  rintro ⟨before, a, after, parted, -⟩
  simp at parted

theorem openAfter_concat (past : List Access) (a : Access) (target : String) :
    OpenAfter (past ++ [a]) target ↔ a.WritesTo target ∨
    (OpenAfter past target ∧ a ≠ .close target) := by
  constructor
  · rintro ⟨before, b, after, parted, writes, unclosed⟩
    rcases parted_concat parted with ⟨-, rfl, -⟩ | ⟨after, rfl, recent⟩
    · exact .inl writes
    · simp only [List.mem_append, List.mem_singleton, not_or] at unclosed
      exact .inr ⟨⟨before, b, after, recent, writes, unclosed.1⟩,
        Ne.symm unclosed.2⟩
  · rintro (writes | ⟨⟨before, b, after, rfl, writes, unclosed⟩, differs⟩)
    · exact ⟨past, a, [], rfl, writes, List.not_mem_nil⟩
    · refine ⟨before, b, after ++ [a], by simp, writes, ?_⟩
      simp only [List.mem_append, List.mem_singleton, not_or]
      exact ⟨unclosed, differs.symm⟩

theorem written_concat (past : List Access) (a : Access) (target : String) :
    Written (past ++ [a]) target ↔ Written past target ∨ a.WritesTo target := by
  simp [Written, or_and_right, exists_or]

theorem textTo?_eq_none {a : Access} {target : String}
    (otherwise : ¬a.WritesTo target) : textTo? target a = none := by
  cases a with
  | write written text append =>
      exact if_neg fun same => otherwise ⟨text, append, by rw [same]⟩
  | close closed => rfl

theorem textsTo_concat (target : String) (past : List Access) (a : Access) :
    textsTo target (past ++ [a]) = textsTo target past ++
      (textTo? target a).toList := by
  rw [textsTo, List.filterMap_append, textsTo]
  cases found : textTo? target a <;> simp [found]

/-! ## The last truncating write -/

theorem fromTruncation_nil (target : String) : FromTruncation target [] [] where
  start := .inl rfl
  last _ _ nonempty parted :=
    absurd (List.append_eq_nil_iff.1 parted.symm).1 nonempty

theorem Truncates.fromTruncation {target : String} {past : List Access}
    {a : Access} (here : Truncates target past [a]) :
    FromTruncation target past [a] where
  start := .inr here
  last middle later nonempty parted := by
    rintro ⟨-, text, after, rfl⟩
    rcases parted_concat (show [] ++ [a] = _ from parted) with
      ⟨rfl, -, -⟩ | ⟨after, -, parted⟩
    · exact nonempty rfl
    · simp at parted

theorem FromTruncation.concat {target : String} {past rest : List Access}
    {a : Access} (h : FromTruncation target past rest)
    (otherwise : ¬Truncates target (past ++ rest) [a]) :
    FromTruncation target past (rest ++ [a]) where
  start := by
    rcases h.start with first | ⟨closed, text, after, rfl⟩
    · exact .inl first
    · exact .inr ⟨closed, text, after ++ [a], rfl⟩
  last middle later nonempty parted := by
    rintro ⟨closed, text, after, rfl⟩
    rcases parted_concat parted with ⟨rfl, rfl, -⟩ | ⟨after, -, parted⟩
    · exact otherwise ⟨closed, text, [], rfl⟩
    · exact h.last middle _ nonempty parted ⟨closed, text, after, rfl⟩

end Access

/-! ## What is kept under a target -/

namespace Output

def access (o : Output) : Access → Output
  | .write target text append => o.writeTo target text append
  | .close target => o.close target

def accessAll (o : Output) (accesses : List Access) : Output :=
  accesses.foldl access o

def withoutRedirects (o : Output) : Output :=
  { o with redirects := {}, opened := [] }

variable (o : Output) (a : Access) (target : String)

theorem accessAll_concat (accesses : List Access) :
    o.accessAll (accesses ++ [a]) = (o.accessAll accesses).access a := by
  simp [accessAll]

theorem isOpen_access :
    (o.access a).isOpen target = true ↔ a.WritesTo target ∨
    (o.isOpen target = true ∧ a ≠ .close target) := by
  simp only [isOpen, List.contains_iff_mem]
  cases a with
  | write written text append =>
      have stored : target ∈ (o.writeTo written text append).opened ↔
          target = written ∨ target ∈ o.opened := by
        simp only [writeTo, List.contains_iff_mem]
        split
        · rename_i present
          exact ⟨.inr, fun h => h.elim (fun same => same ▸ present) id⟩
        · exact List.mem_cons
      simp [access, stored, Access.WritesTo, eq_comm (a := target)]
  | close closed =>
      simp [access, close, Access.WritesTo, eq_comm (a := closed)]

/-- What a target holds, as far as writing to it goes: nothing and the empty
text are the same. -/
def held : String := (o.redirects.get? target).getD ""

theorem get?_writeTo (written text : String) (append : Bool) :
    (o.writeTo written text append).redirects.get? target =
      if target = written then some ((if append ||
        o.isOpen written then o.held written else "") ++ text)
      else o.redirects.get? target := by
  rw [writeTo, Table.get?_insert]
  rfl

theorem get?_access_of_ne (otherwise : ¬a.WritesTo target) :
    (o.access a).redirects.get? target = o.redirects.get? target := by
  cases a with
  | write written text append =>
      have differs : target ≠ written :=
        fun same => otherwise ⟨text, append, by rw [same]⟩
      exact (o.get?_writeTo target written text append).trans (if_neg differs)
  | close closed => rfl

/-- A write to the target appends to what it holds, unless it empties the target
first. -/
theorem held_access_write (text : String) (append : Bool) :
    (o.access (.write target text append)).held target =
      (if append || o.isOpen target then o.held target else "") ++ text := by
  rw [held, access, get?_writeTo, if_pos rfl, Option.getD_some]

/-! ## After any accesses -/

variable (accesses : List Access)

theorem isOpen_accessAll :
    (o.withoutRedirects.accessAll accesses).isOpen target = true ↔
    Access.OpenAfter accesses target := by
  induction accesses using List.reverseRecOn with
  | nil => simp [accessAll, withoutRedirects, isOpen, Access.not_openAfter_nil]
  | append_singleton accesses a ih =>
      rw [accessAll_concat, isOpen_access, Access.openAfter_concat, ih]

theorem isSome_get?_accessAll :
    ((o.withoutRedirects.accessAll accesses).redirects.get? target).isSome =
      true ↔ Access.Written accesses target := by
  induction accesses using List.reverseRecOn with
  | nil =>
      simp [accessAll, withoutRedirects, Access.Written, Table.get?,
        EmptyCollection.emptyCollection, Table.empty]
  | append_singleton accesses a ih =>
      rw [accessAll_concat, Access.written_concat, ← ih]
      by_cases here : a.WritesTo target
      · obtain ⟨text, append, rfl⟩ := here
        simp [access, get?_writeTo, Access.WritesTo]
      · simp [get?_access_of_ne _ _ _ here, here]

/-- A target holds what was written to it from its last truncating write on. -/
theorem held_accessAll :
    ∃ past rest, accesses = past ++ rest ∧
    Access.FromTruncation target past rest ∧
      (o.withoutRedirects.accessAll accesses).held target =
        String.join (Access.textsTo target rest) := by
  induction accesses using List.reverseRecOn with
  | nil => exact ⟨[], [], rfl, Access.fromTruncation_nil target, rfl⟩
  | append_singleton accesses a ih =>
      obtain ⟨past, rest, parted, last, held⟩ := ih
      have opened := o.isOpen_accessAll target accesses
      rw [accessAll_concat]
      by_cases truncates : Access.Truncates target accesses [a]
      · refine ⟨accesses, [a], rfl, truncates.fromTruncation, ?_⟩
        obtain ⟨closed, text, after, same⟩ := truncates
        obtain ⟨rfl, -⟩ := List.cons.inj same
        have unopened := mt opened.1 closed
        rw [held_access_write, Bool.false_or, if_neg unopened]
        simp [Access.textsTo, Access.textTo?]
      · refine ⟨past, rest ++ [a], by rw [parted, List.append_assoc],
          last.concat (parted ▸ truncates), ?_⟩
        rw [Access.textsTo_concat, String.join_append, ← held]
        by_cases here : a.WritesTo target
        · obtain ⟨text, append, rfl⟩ := here
          have kept :
              (append ||
                (o.withoutRedirects.accessAll accesses).isOpen target) =
                true := by
            cases append with
            | true => rfl
            | false =>
                exact opened.2 (by_contra fun closed => truncates ⟨closed, text,
                  [], rfl⟩)
          rw [held_access_write, if_pos kept]
          simp [Access.textTo?]
        · rw [Access.textTo?_eq_none here, Output.held,
            get?_access_of_ne _ _ _ here]
          simp [Output.held]

/-! ## Other targets -/

def AgreeOn (target : String) (o o' : Output) : Prop :=
  o.redirects.get? target = o'.redirects.get? target ∧
    o.isOpen target = o'.isOpen target

variable {o a target} {o' : Output}

theorem AgreeOn.access (agree : AgreeOn target o o') :
    AgreeOn target (o.access a) (o'.access a) := by
  have held : o.held target = o'.held target := by
    rw [Output.held, agree.1, Output.held]
  constructor
  · cases a with
    | write written text append =>
        simp only [Output.access, get?_writeTo]
        split
        · rename_i same
          rw [← same, held, agree.2]
        · exact agree.1
    | close closed => exact agree.1
  · rw [Bool.eq_iff_iff, isOpen_access, isOpen_access, agree.2]

theorem AgreeOn.access_other (agree : AgreeOn target o o')
    (other : a.target ≠ target) : AgreeOn target (o.access a) o' := by
  have otherwise : ¬a.WritesTo target :=
    fun ⟨text, append, writes⟩ => other (by rw [writes]; rfl)
  have unclosed : a ≠ .close target := fun closes => other (by rw [closes]; rfl)
  constructor
  · rw [get?_access_of_ne _ _ _ otherwise, agree.1]
  · rw [Bool.eq_iff_iff, isOpen_access, agree.2]
    simp [otherwise, unclosed]

theorem accessAll_filter (o : Output) (target : String)
    (accesses : List Access) :
    AgreeOn target (o.accessAll accesses)
      (o.accessAll (accesses.filter fun a => a.target == target)) := by
  induction accesses using List.reverseRecOn with
  | nil => exact ⟨rfl, rfl⟩
  | append_singleton accesses a ih =>
      rw [accessAll_concat, List.filter_append]
      by_cases same : a.target = target
      · rw [List.filter_cons_of_pos (by simpa using same), List.filter_nil,
          accessAll_concat]
        exact ih.access
      · rw [List.filter_cons_of_neg (by simpa using same), List.filter_nil,
          List.append_nil]
        exact ih.access_other same

theorem text_accessAll (o : Output) (accesses : List Access) :
    (o.accessAll accesses).text = o.text := by
  induction accesses using List.reverseRecOn with
  | nil => rfl
  | append_singleton accesses a ih =>
      rw [accessAll_concat, ← ih]
      cases a <;> rfl

end Output

theorem Access.performAll_apply (accesses : List Access) (m : Machine) :
    Access.performAll accesses m = .ok () { m with
      output := m.output.accessAll accesses } := by
  induction accesses generalizing m with
  | nil => rfl
  | cons a rest ih =>
      have first : a.perform m = .ok () { m with
        output := m.output.access a } := by cases a <;> rfl
      rw [Access.performAll, Exec.bind_ok first, ih]
      rfl

/-- A target that was written to holds what was written to it from its last
truncating write on.  Other targets have no part in that, closing tells whether
the target was written to since it was closed, and the main output stays as it
is. -/
theorem redirects_behave_like_files (m : Machine) (accesses : List Access)
    (target : String) :
    ∃ o, Access.performAll accesses { m with
      output := m.output.withoutRedirects } = .ok () { m with output := o } ∧
      (Access.Written accesses target →
        ∃ past rest, accesses = past ++ rest ∧
        Access.FromTruncation target past rest ∧
          o.redirects.get? target =
            some (String.join (Access.textsTo target rest))) ∧
      (¬Access.Written accesses target → o.redirects.get? target = none) ∧
      (∃ o', Access.performAll (accesses.filter fun a => a.target == target)
            { m with output := m.output.withoutRedirects } = .ok () { m with
              output := o' } ∧
          o.redirects.get? target = o'.redirects.get? target ∧
          o.isOpen target = o'.isOpen target) ∧
      (∃ wasOpen m', Exec.closeTarget target { m with
        output := o } = .ok wasOpen m' ∧
          (wasOpen = true ↔ Access.OpenAfter accesses target)) ∧
      o.text = m.output.text := by
  have present := m.output.isSome_get?_accessAll target accesses
  refine ⟨m.output.withoutRedirects.accessAll accesses,
    Access.performAll_apply accesses _, ?_, ?_, ?_, ?_, ?_⟩
  · intro written
    obtain ⟨past, rest, parted, last, held⟩ :=
      m.output.held_accessAll target accesses
    obtain ⟨text, stored⟩ := Option.isSome_iff_exists.1 (present.2 written)
    refine ⟨past, rest, parted, last, ?_⟩
    rw [← held, Output.held, stored, Option.getD_some]
  · intro unwritten
    exact Option.not_isSome_iff_eq_none.1 (mt present.1 unwritten)
  · exact ⟨_, Access.performAll_apply _ _,
      Output.accessAll_filter _ target accesses⟩
  · exact ⟨_, _, rfl, m.output.isOpen_accessAll target accesses⟩
  · exact Output.text_accessAll _ accesses

end Awk
