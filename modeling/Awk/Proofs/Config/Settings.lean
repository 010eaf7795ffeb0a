import Awk.CommandLine.Run

/-!
# Settings from data

A mapping of settings is taken as a whole or refused.  If it is taken, every
setting in it holds what its kind makes of the datum, and every other one what
it held before, so that limits stay positive.  If it is refused, the command
line tells so, with one exception: limits for which no number can be made of the
datum at all.
-/

namespace Awk.Config

open CommandLine (settingStep complain)

inductive Held where
  | text (t : Option String)
  | texts (t : Table String)
  | limit (n : Int)

inductive Kind where
  | text
  | texts
  | limit
  deriving DecidableEq

def Held.kind : Held → Kind
  | .text _ => .text
  | .texts _ => .texts
  | .limit _ => .limit

namespace Setting

def kind : Setting → Kind
  | .fieldSeparator | .ofs | .ors | .rs | .cwd => .text
  | .presets | .environ => .texts
  | .maxIterations | .maxCalls => .limit

def name : Setting → String
  | .fieldSeparator => "field_separator"
  | .ofs => "ofs"
  | .ors => "ors"
  | .rs => "rs"
  | .presets => "variables"
  | .maxIterations => "max_iterations"
  | .maxCalls => "max_recursion_depth"
  | .cwd => "cwd"
  | .environ => "environ"

def held (s : Setting) (o : Options) : Held :=
  match s with
  | .fieldSeparator => .text o.fieldSeparator
  | .ofs => .text o.ofs
  | .ors => .text o.ors
  | .rs => .text o.rs
  | .presets => .texts o.presets
  | .maxIterations => .limit o.maxIterations
  | .maxCalls => .limit o.maxCalls
  | .cwd => .text o.cwd
  | .environ => .texts o.environ

def put (s : Setting) (h : Held) (o : Options) : Options :=
  match s, h with
  | .fieldSeparator, .text t => { o with fieldSeparator := t }
  | .ofs, .text t => { o with ofs := t }
  | .ors, .text t => { o with ors := t }
  | .rs, .text t => { o with rs := t }
  | .presets, .texts t => { o with presets := t }
  | .maxIterations, .limit n => { o with maxIterations := n }
  | .maxCalls, .limit n => { o with maxCalls := n }
  | .cwd, .text t => { o with cwd := t }
  | .environ, .texts t => { o with environ := t }
  | _, _ => o

def read (s : Setting) (d : Datum) : Except SettingError Held :=
  match s.kind with
  | .text => (optionText d).map .text
  | .texts => (textsOf s.name d).map .texts
  | .limit => (d.toInteger.bind (limitOf s.name)).map .limit

theorem ofName?_eq_some_iff {name : String} {s : Setting} :
    ofName? name = some s ↔ name = s.name := by
  constructor
  · intro named
    unfold ofName? at named
    split at named <;> cases named <;> rfl
  · rintro rfl
    cases s <;> rfl

theorem map_map_eq_bind {α : Type} (x : Except SettingError α) (f : α → Held)
    (g : Held → Options) :
    (x.map f).map g = x >>= fun a => pure (g (f a)) := by
  cases x <;> rfl

theorem apply_eq (s : Setting) (d : Datum) (o : Options) :
    s.apply d o = (s.read d).map fun h => s.put h o := by
  cases s with
  | maxIterations | maxCalls =>
      simp only [read, kind, name, map_map_eq_bind, apply, put]
      cases d.toInteger <;> rfl
  | _ =>
      simp only [read, kind, name, map_map_eq_bind, apply, put]

theorem held_put {s : Setting} {h : Held} (fits : h.kind = s.kind)
    (o : Options) : s.held (s.put h o) = h := by
  cases s <;> cases h <;> simp_all [kind, Held.kind, held, put]

theorem held_put_of_ne {s t : Setting} (other : t ≠ s) (h : Held)
    (o : Options) : t.held (s.put h o) = t.held o := by
  unfold put
  split <;> cases t <;> simp_all [held]

/-- What a setting takes: texts are left out or written, texts by name come as a
mapping, and limits are positive integers in any spelling. -/
inductive Takes (s : Setting) : Datum → Held → Prop where
  | leftOut (single : s.kind = .text) : Takes s .null (.text none)
  | written {d : Datum} (single : s.kind = .text) (given : d ≠ .null)
      (short : d.hasText = true) : Takes s d (.text (some d.toText))
  | mapping {entries : List (Datum × Datum)} (several : s.kind = .texts)
      (short : Datum.entriesHaveText entries = true) :
      Takes s (.mapping entries)
        (.texts (Table.ofList (entries.map fun entry => (entry.1.toText,
          entry.2.toText))))
  | number {d : Datum} {n : Int} (limit : s.kind = .limit)
      (whole : d.toInteger = .ok n) (positive : 1 ≤ n) : Takes s d (.limit n)

theorem Takes.kind_eq {s : Setting} {d : Datum} {h : Held}
    (takes : s.Takes d h) : h.kind = s.kind := by
  cases takes <;> simp_all [Held.kind]

theorem optionText_of_ne_null {d : Datum} (given : d ≠ .null) :
    optionText d = if d.hasText then .ok (some d.toText)
    else .error (.tooManyDigits none) := by
  cases d <;> simp_all [optionText]

theorem takes_of_read {s : Setting} {d : Datum} {h : Held}
    (taken : s.read d = .ok h) : s.Takes d h := by
  unfold read at taken
  cases ofKind : s.kind with
  | text =>
      rw [ofKind] at taken
      by_cases absent : d = .null
      · subst absent
        cases taken
        exact .leftOut ofKind
      · by_cases short : d.hasText = true
        · simp only [optionText_of_ne_null absent, if_pos short, Except.map,
            Except.ok.injEq] at taken
          exact taken ▸ .written ofKind absent short
        · simp [optionText_of_ne_null absent, short, Except.map] at taken
  | texts =>
      rw [ofKind] at taken
      cases d with
      | mapping entries =>
          by_cases short : Datum.entriesHaveText entries = true
          · simp only [textsOf, if_pos short, Except.map, Except.ok.injEq]
              at taken
            exact taken ▸ .mapping ofKind short
          · simp [textsOf, short, Except.map] at taken
      | _ => simp [textsOf, Except.map] at taken
  | limit =>
      rw [ofKind] at taken
      cases whole : d.toInteger with
      | error e => simp [whole, Except.map, Except.bind] at taken
      | ok n =>
          by_cases low : n < 1
          · simp [whole, Except.map, Except.bind, limitOf, low] at taken
          · simp only [whole, Except.map, Except.bind, limitOf, if_neg low,
              Except.ok.injEq] at taken
            exact taken ▸ .number ofKind whole (by omega)

theorem Takes.read_eq {s : Setting} {d : Datum} {h : Held}
    (takes : s.Takes d h) : s.read d = .ok h := by
  cases takes with
  | leftOut single => simp [read, single, optionText, Except.map]
  | written single given short =>
      simp [read, single, optionText_of_ne_null given, short, Except.map]
  | mapping several short => simp [read, several, textsOf, short, Except.map]
  | number limit whole positive =>
      have high := Int.not_lt.2 positive
      simp [read, limit, whole, limitOf, high, Except.map, Except.bind]

end Setting

/-! ## Data that are refused -/

def Datum.Unfit : Datum → Prop
  | .null | .list _ | .mapping _ => True
  | .real x => x.truncate? = none ∧ x.isNaN = false
  | .flag _ | .integer _ | .text _ => False

/-- A failure that the command line complains about, in the words of its
message. -/
def SettingError.IsReported (e : SettingError) : Prop :=
  settingStep (.error e : Except SettingError Options) = complain e.message

/-- A failure that ends the command line without a complaint. -/
def SettingError.IsSilent (e : SettingError) : Prop :=
  settingStep (.error e : Except SettingError Options) =
    .error (.stop (.setting e))

theorem optionText_error {d : Datum} {e : SettingError}
    (refused : optionText d = .error e) : e.IsReported := by
  by_cases absent : d = .null
  · subst absent
    contradiction
  · rw [Setting.optionText_of_ne_null absent] at refused
    split at refused
    · contradiction
    · exact Except.error.inj refused ▸ rfl

theorem textsOf_error {name : String} {d : Datum} {e : SettingError}
    (refused : textsOf name d = .error e) :
    e.IsReported := by
  unfold textsOf at refused
  split at refused
  · split at refused
    · contradiction
    · exact Except.error.inj refused ▸ rfl
  · exact Except.error.inj refused ▸ rfl

theorem limitOf_error {name : String} {n : Int} {e : SettingError}
    (refused : limitOf name n = .error e) :
    e.IsReported := by
  unfold limitOf at refused
  split at refused
  · rw [← Except.error.inj refused]
    split <;> rfl
  · contradiction

theorem toInteger_error {d : Datum} {e : SettingError}
    (refused : d.toInteger = .error e) :
    d.Unfit ∧ e.IsSilent ∨ ¬d.Unfit ∧ e.IsReported := by
  cases d with
  | null | list | mapping =>
      cases refused
      exact .inl ⟨trivial, rfl⟩
  | flag | integer => simp [Datum.toInteger] at refused
  | text s =>
      refine .inr ⟨id, ?_⟩
      simp only [Datum.toInteger] at refused
      split at refused
      · contradiction
      · split at refused <;> exact Except.error.inj refused ▸ rfl
  | real x =>
      simp only [Datum.toInteger] at refused
      split at refused
      · contradiction
      · rename_i whole
        cases refused
        cases nan : x.isNaN with
        | true => exact .inr ⟨by simp [Datum.Unfit, nan], rfl⟩
        | false => exact .inl ⟨⟨whole, nan⟩, rfl⟩

theorem not_unfit_of_toInteger {d : Datum} {n : Int}
    (whole : d.toInteger = .ok n) : ¬d.Unfit := by
  cases d with
  | null | list | mapping => contradiction
  | flag | integer | text => exact id
  | real x =>
      rintro ⟨infinite, -⟩
      simp [Datum.toInteger, infinite] at whole

/-- Reading fails without a complaint only where a limit gets a datum that no
number can be made of. -/
theorem read_error {s : Setting} {d : Datum} {e : SettingError}
    (refused : s.read d = .error e) :
    (s.kind = .limit ∧ d.Unfit) ∧ e.IsSilent ∨ ¬(s.kind = .limit ∧ d.Unfit) ∧
    e.IsReported := by
  unfold Setting.read at refused
  cases ofKind : s.kind with
  | text =>
      rw [ofKind] at refused
      cases found : optionText d with
      | ok t => simp [found, Except.map] at refused
      | error e' =>
          obtain rfl : e' = e := by simpa [found, Except.map] using refused
          exact .inr ⟨by simp, optionText_error found⟩
  | texts =>
      rw [ofKind] at refused
      cases found : textsOf s.name d with
      | ok t => simp [found, Except.map] at refused
      | error e' =>
          obtain rfl : e' = e := by simpa [found, Except.map] using refused
          exact .inr ⟨by simp, textsOf_error found⟩
  | limit =>
      rw [ofKind] at refused
      cases whole : d.toInteger with
      | error e' =>
          obtain rfl : e' = e := by
            simpa [whole, Except.map, Except.bind] using refused
          simpa using toInteger_error whole
      | ok n =>
          cases found : limitOf s.name n with
          | ok m => simp [whole, found, Except.map, Except.bind] at refused
          | error e' =>
              obtain rfl : e' = e := by
                simpa [whole, found, Except.map, Except.bind] using refused
              exact .inr ⟨fun unfit => not_unfit_of_toInteger whole unfit.2,
                limitOf_error found⟩

/-! ## Mappings -/

def named (entries : List (String × Datum)) : List (Datum × Datum) :=
  entries.map fun entry => (.text entry.1, entry.2)

def IsTaken (entry : String × Datum) : Prop :=
  ∃ s h, entry.1 = Setting.name s ∧ s.Takes entry.2 h

/-- The entries have been put into the options, and nothing else was changed. -/
structure Applied (entries : List (String × Datum)) (o o' : Options) :
    Prop where
  taken : ∀ entry ∈ entries, IsTaken entry
  kept : ∀ s : Setting, s.name ∉ entries.map Prod.fst → s.held o' = s.held o
  held : ∀ (s : Setting) (d : Datum), (s.name, d) ∈ entries →
    s.Takes d (s.held o')

theorem Setting.name_injective {s t : Setting} (same : s.name = t.name) :
    s = t := by
  have found := ofName?_eq_some_iff.2 same
  rw [ofName?_eq_some_iff.2 rfl] at found
  exact Option.some.inj found

theorem applyEntries_cons (s : Setting) (d : Datum)
    (rest : List (String × Datum)) (o : Options) :
    applyEntries (named ((s.name, d) :: rest)) o =
      (s.apply d o).bind (applyEntries (named rest)) := by
  have found : Setting.ofName? s.name = some s :=
    Setting.ofName?_eq_some_iff.2 rfl
  simp only [named, List.map_cons, applyEntries, Datum.toText, found]
  rfl

theorem Applied.cons {s : Setting} {d : Datum} {h : Held}
    {rest : List (String × Datum)} {o o' : Options} (takes : s.Takes d h)
    (fresh : s.name ∉ rest.map Prod.fst)
    (applied : Applied rest (s.put h o) o') :
    Applied ((s.name, d) :: rest) o o' where
  taken := by
    rw [List.forall_mem_cons]
    exact ⟨⟨s, h, rfl, takes⟩, applied.taken⟩
  kept := by
    intro t absent
    simp only [List.map_cons, List.mem_cons, not_or] at absent
    have other : t ≠ s := fun same => absent.1 (congrArg Setting.name same)
    rw [applied.kept t absent.2, Setting.held_put_of_ne other]
  held := by
    intro t d' among
    rcases List.mem_cons.1 among with here | later
    · obtain ⟨same, rfl⟩ := Prod.mk.inj here
      obtain rfl := Setting.name_injective same
      rw [applied.kept t fresh, Setting.held_put takes.kind_eq]
      exact takes
    · exact applied.held t d' later

/-- Entries are applied one after the other, up to the first one that is
refused. -/
theorem applyEntries_outcome {entries : List (String × Datum)}
    (known : ∀ entry ∈ entries, ∃ s : Setting, entry.1 = s.name)
    (distinct : (entries.map Prod.fst).Nodup) (o : Options) :
    (∃ o', applyEntries (named entries) o = .ok o' ∧ Applied entries o o') ∨
      ∃ e before s d after, applyEntries (named entries) o = .error e ∧
      entries = before ++ (Setting.name s, d) :: after ∧
        (∀ entry ∈ before, IsTaken entry) ∧ s.read d = .error e := by
  induction entries generalizing o with
  | nil => exact .inl ⟨o, rfl, by simp, by simp, by simp⟩
  | cons entry rest ih =>
      obtain ⟨name, d⟩ := entry
      simp only [List.forall_mem_cons] at known
      simp only [List.map_cons, List.nodup_cons] at distinct
      obtain ⟨⟨s, rfl⟩, others⟩ := known
      rw [applyEntries_cons, s.apply_eq]
      cases result : s.read d with
      | error e => exact .inr ⟨e, [], s, d, rest, rfl, rfl, by simp, result⟩
      | ok h =>
          have takes := Setting.takes_of_read result
          rcases ih others distinct.2 (s.put h o) with
            ⟨o', done, applied⟩ | ⟨e, before, t, d', after, failed, rfl, front,
              refused⟩
          · exact .inl ⟨o', done, .cons takes distinct.1 applied⟩
          · refine .inr ⟨e, (s.name, d) :: before, t, d', after, failed, rfl,
              ?_, refused⟩
            rw [List.forall_mem_cons]
            exact ⟨⟨s, h, rfl, takes⟩, front⟩

theorem not_isTaken_of_read_error {s : Setting} {d : Datum} {e : SettingError}
    (refused : s.read d = .error e) :
    ¬IsTaken (s.name, d) := by
  rintro ⟨t, h, same, takes⟩
  obtain rfl := Setting.name_injective same
  rw [takes.read_eq] at refused
  contradiction

/-- All settings are known, and the first one that is not taken is a limit with
a datum that is no number. -/
structure MeetsUnfit (entries : List (String × Datum)) : Prop where
  known : ∀ entry ∈ entries, ∃ s : Setting, entry.1 = s.name
  meets : ∃ before s d after, entries = before ++ (Setting.name s, d) :: after ∧
    (∀ entry ∈ before, IsTaken entry) ∧ s.kind = .limit ∧ d.Unfit

theorem not_isTaken_of_unfit {s : Setting} {d : Datum} (limit : s.kind = .limit)
    (unfit : d.Unfit) :
    ¬IsTaken (s.name, d) := by
  rintro ⟨t, h, same, takes⟩
  obtain rfl := Setting.name_injective same
  cases takes with
  | number _ whole _ => exact not_unfit_of_toInteger whole unfit
  | leftOut other | written other | mapping other => simp [limit] at other

theorem first_not_taken {before before' after after' : List (String × Datum)}
    {entry entry' : String × Datum}
    (same : before ++ entry :: after = before' ++ entry' :: after')
    (front : ∀ x ∈ before, IsTaken x) (front' : ∀ x ∈ before', IsTaken x)
    (stop : ¬IsTaken entry) (stop' : ¬IsTaken entry') : entry = entry' := by
  rcases List.append_eq_append_iff.1 same with
    ⟨between, rfl, tail⟩ | ⟨between, rfl, tail⟩
  · cases between with
    | nil => simpa using (List.cons.inj tail).1
    | cons x between =>
        obtain ⟨rfl, -⟩ := List.cons.inj tail
        exact absurd (front' entry (by simp)) stop
  · cases between with
    | nil => simpa using (List.cons.inj tail).1.symm
    | cons x between =>
        obtain ⟨rfl, -⟩ := List.cons.inj tail
        exact absurd (front entry' (by simp)) stop'

theorem isKnown_text (name : String) : isKnown (.text name) = true ↔
    ∃ s : Setting, name = s.name := by
  simp only [isKnown, Option.isSome_iff_exists, Setting.ofName?_eq_some_iff]

theorem ofEntries_of_known {entries : List (String × Datum)}
    (known : ∀ entry ∈ entries, ∃ s : Setting, entry.1 = s.name)
    (base : Options) : ofEntries (named entries) base =
      applyEntries (named entries) base := by
  have none : ((named entries).map Prod.fst).filter (fun key => !isKnown key) =
      [] := by
    simp only [named, List.map_map, List.filter_eq_nil_iff, List.forall_mem_map,
      Function.comp]
    intro entry among
    simp [(isKnown_text entry.1).2 (known entry among)]
  simp only [ofEntries, none]

theorem mapM_name?_text (names : List String) :
    (names.map Datum.text).mapM Datum.name? = some names := by
  induction names with
  | nil => rfl
  | cons name rest ih =>
      rw [List.map_cons, List.mapM_cons, ih]
      rfl

theorem filter_keys_named (entries : List (String × Datum)) :
    ∃ names : List String, names.map Datum.text =
      ((named entries).map Prod.fst).filter (fun key => !isKnown key) := by
  refine ⟨(entries.map Prod.fst).filter fun name => !isKnown (.text name), ?_⟩
  simp only [named, List.map_map, List.filter_map]
  rfl

theorem ofEntries_of_unknown {entries : List (String × Datum)}
    {entry : String × Datum} (among : entry ∈ entries)
    (unknown : ¬∃ s : Setting, entry.1 = s.name) (base : Options) :
    ∃ names, ofEntries (named entries) base = .error (.unknown names) := by
  have found : Datum.text entry.1 ∈
      ((named entries).map Prod.fst).filter (fun key => !isKnown key) := by
    rw [← isKnown_text] at unknown
    simp only [List.mem_filter, named, List.map_map]
    exact ⟨List.mem_map.2 ⟨entry, among, rfl⟩, by simpa using unknown⟩
  obtain ⟨names, texts⟩ := filter_keys_named entries
  unfold ofEntries
  split
  · rename_i none
    simp [none] at found
  · rw [← texts, mapM_name?_text]
    exact ⟨_, rfl⟩

theorem Applied.positive {entries : List (String × Datum)} {o o' : Options}
    (applied : Applied entries o o') {s : Setting} {n n' : Int}
    (before : s.held o = .limit n) (after : s.held o' = .limit n')
    (positive : 1 ≤ n) : 1 ≤ n' := by
  by_cases given : s.name ∈ entries.map Prod.fst
  · obtain ⟨⟨name, d⟩, among, rfl⟩ := List.mem_map.1 given
    have takes := applied.held s d among
    rw [after] at takes
    cases takes with
    | number _ _ high => exact high
  · have same := applied.kept s given
    rw [before, after] at same
    obtain rfl := Held.limit.inj same
    exact positive

/-- A mapping of names is put into the options as a whole, which leaves limits
positive, or it is refused.  It is refused only if some setting in it is not
known or not taken, and the command line complains about that, unless the first
setting that is not taken is a limit with a datum that is no number: then
nothing is said. -/
theorem settings_taken_or_reported (entries : List (String × Datum))
    (distinct : (entries.map Prod.fst).Nodup) (base : Options)
    (positive : 1 ≤ base.maxIterations ∧ 1 ≤ base.maxCalls) :
    let answer := ofEntries (named entries) base
    (∃ o, answer = .ok o ∧ Applied entries base o ∧ 1 ≤ o.maxIterations ∧
      1 ≤ o.maxCalls) ∨ (∃ e, answer = .error e ∧
      settingStep answer = complain e.message ∧
      (∃ entry ∈ entries, ¬IsTaken entry) ∧ ¬MeetsUnfit entries) ∨
    ∃ e, answer = .error e ∧ settingStep answer = .error (.stop (.setting e)) ∧
    MeetsUnfit entries := by
  intro answer
  by_cases known : ∀ entry ∈ entries, ∃ s : Setting, entry.1 = s.name
  · have same : answer = applyEntries (named entries) base :=
      ofEntries_of_known known base
    rcases applyEntries_outcome known distinct base with
      ⟨o, done, applied⟩ | ⟨e, before, s, d, after, failed, parted, front,
        refused⟩
    · refine .inl ⟨o, same.trans done, applied, ?_, ?_⟩
      · exact applied.positive (s := .maxIterations) rfl rfl positive.1
      · exact applied.positive (s := .maxCalls) rfl rfl positive.2
    · have stop := not_isTaken_of_read_error refused
      have error : answer = .error e := same.trans failed
      rcases read_error refused with ⟨⟨limit, unfit⟩, silent⟩ | ⟨fit, reported⟩
      · exact .inr (.inr ⟨e, error, error ▸ silent, known, before, s, d, after,
          parted, front, limit, unfit⟩)
      · refine .inr (.inl ⟨e, error, error ▸ reported,
          ⟨(s.name, d), by simp [parted], stop⟩, ?_⟩)
        rintro ⟨-, before', t, d', after', parted', front', limit, unfit⟩
        have first :=
          first_not_taken (parted.symm.trans parted') front front' stop
            (not_isTaken_of_unfit limit unfit)
        obtain ⟨name, rfl⟩ := Prod.mk.inj first
        obtain rfl := Setting.name_injective name
        exact fit ⟨limit, unfit⟩
  · obtain ⟨entry, unknown⟩ := Classical.not_forall.1 known
    obtain ⟨among, absent⟩ := Classical.not_imp.1 unknown
    obtain ⟨names, refused⟩ := ofEntries_of_unknown among absent base
    have error : answer = .error (.unknown names) := refused
    refine .inr (.inl ⟨.unknown names, error, error ▸ rfl, ⟨entry, among, ?_⟩,
      ?_⟩)
    · rintro ⟨s, h, same, -⟩
      exact absent ⟨s, same⟩
    · rintro ⟨all, -⟩
      exact absent (all entry among)

theorem spelled_limit_taken :
    let entries := [("ofs", Datum.flag true), ("max_iterations", .text " 1_0 "),
      ("variables", .mapping [])]
    (entries.map Prod.fst).Nodup ∧ ∃ o, ofEntries (named entries) {} = .ok o ∧
    Applied entries {} o ∧ 1 ≤ o.maxIterations ∧ 1 ≤ o.maxCalls := by
  intro entries
  have distinct : (entries.map Prod.fst).Nodup := by decide
  have answer : ofEntries (named entries) {} =
      .ok { ofs := some "True", maxIterations := 10 } := by rfl
  refine ⟨distinct, ?_⟩
  rcases settings_taken_or_reported entries distinct {} (by decide) with
    taken | ⟨e, refused, -⟩ | ⟨e, refused, -⟩
  · exact taken
  · rw [answer] at refused
    contradiction
  · rw [answer] at refused
    contradiction

/-- A limit that is null is neither taken nor complained about. -/
theorem null_limit_not_reported :
    let answer := ofEntries (named [("max_iterations", .null)]) {}
    answer = .error (.notNumber .null) ∧ (∀ o, answer ≠ .ok o) ∧
    ∀ message, settingStep answer ≠ complain message := by
  intro answer
  have refused : answer = .error (.notNumber .null) := rfl
  have silent : settingStep answer =
      .error (.stop (.setting (.notNumber .null))) := rfl
  refine ⟨refused, ?_, ?_⟩
  · intro o
    rw [refused]
    simp
  · intro message
    rw [silent, complain]
    simp

end Awk.Config
