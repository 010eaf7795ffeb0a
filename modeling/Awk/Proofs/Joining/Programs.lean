import Awk.Proofs.Joining.Items
import Awk.Proofs.Source.WellFormed
import Awk.CommandLine.Run

/-!
# Programs from joined texts

Two texts that are programs, with a newline between them, are one program: its
rules and functions are those of the first text and then those of the second
one.  The functions have to differ, for a function is defined once.

A program is a sequence of items with gaps around them.  `Entries` describes it
without a place in the text: it follows from a run of the parser at one place,
and it leads to runs at all places.
-/

namespace Awk.Source

open Awk.Source.Parser (many stepsWithin)

variable {t cs s rest : List Char} {d : Nat} {items items' : List Item}

/-! ## Gaps over the end of a text -/

/-- A gap that takes a whole text and may cross newlines goes on behind the
newline, even out of a comment. -/
theorem Gap.length_across {g : Gap} (crosses : g.contains '\n' = true)
    {comment : Bool} {cs : List Char} (whole : g.length comment cs = cs.length)
    (s : List Char) :
    g.length comment (cs ++ '\n' :: s) = cs.length +
      (g.length false s + 1) := by
  fun_induction Gap.length g comment cs with
  | case1 rest inside ih =>
      rw [List.cons_append, Gap.length, if_pos inside,
        ih (by simpa using whole), List.length_cons]
      omega
  | case2 rest outside => exact (outside crosses).elim
  | case3 c rest other ih =>
      rw [List.cons_append, Gap.length.eq_2 g c _ other,
        ih (by simpa using whole), List.length_cons]
      omega
  | case4 rest ih =>
      rw [List.cons_append, List.cons_append, Gap.length,
        ih (by simpa using whole), List.length_cons, List.length_cons]
      omega
  | case5 rest ih =>
      rw [List.cons_append, List.cons_append, List.cons_append, Gap.length,
        ih (by simpa using whole), List.length_cons, List.length_cons,
        List.length_cons]
      omega
  | case6 rest one two ih =>
      rw [List.cons_append, Gap.length.eq_5 g _ _ (by simp) (by simp),
        if_pos rfl, ih (by simpa using whole), List.length_cons]
      omega
  | case7 c rest one two other inside ih =>
      have bare : c ≠ '\\' := by
        rintro rfl
        cases g <;> contradiction
      rw [List.cons_append,
        Gap.length.eq_5 g c _ (fun _ same => (bare same).elim)
          (fun _ same => (bare same).elim), if_neg other, if_pos inside,
        ih (by simpa using whole), List.length_cons]
      omega
  | case8 c rest one two other outside => simp at whole
  | case9 comment =>
      cases comment
      · rw [List.nil_append, Gap.length.eq_5 g '\n' s (by simp) (by simp),
          if_neg (by decide), if_pos crosses, List.length_nil, Nat.zero_add]
      · rw [List.nil_append, Gap.length, if_pos crosses, List.length_nil,
          Nat.zero_add]

theorem Gap.behind_across {g : Gap} (crosses : g.contains '\n' = true)
    (whole : g.behind cs = []) (s : List Char) :
    g.behind (cs ++ '\n' :: s) = g.behind s := by
  have full : g.length false cs = cs.length :=
    Nat.le_antisymm (g.length_le false cs) (List.drop_eq_nil_iff.1 whole)
  rw [Gap.behind, g.length_across crosses full, List.drop_append,
    List.drop_of_length_le (by omega), List.nil_append, Nat.add_sub_cancel_left,
    List.drop_succ_cons, Gap.behind]

/-! ## The items of a text -/

abbrev entry (d : Nat) : Parser Item :=
  item (expression d (.expr true)) (statement d)

inductive Entries (d : Nat) : List Char → List Item → Prop
  | nil {cs : List Char} (done : Gap.terms.behind cs = []) : Entries d cs []
  | cons {cs rest : List Char} {i : Item} {items : List Item}
      (first : Leaves (entry d) (Gap.terms.behind cs) i rest)
      (later : Entries d rest items) : Entries d cs (i :: items)

theorem takes_entry (d : Nat) : Takes 1 (entry d) :=
  .item (.expression d _) (.statement d)

theorem idle_entry (g : Gap) : Idle g (entry d) := by
  refine (idle_words (by decide) (by decide) g).bind.orElse ?_
  refine (idle_words (by decide) (by decide) g).bind.orElse
    ((idle_words (by decide) (by decide) g).bind.orElse ?_)
  exact (idle_symbol (by decide) g).bind.bind.orElse (idle_expression g _).bind

theorem Entries.congr (h : Entries d s items)
    (same : Gap.terms.behind cs = Gap.terms.behind s) : Entries d cs items := by
  cases h with
  | nil done => exact .nil (same.trans done)
  | cons first later => exact .cons (same ▸ first) later

/-- Where an item is found, an item like it is found everywhere, also with more
text behind it. -/
theorem Leaves.entry_finds (newline : OnNewLine t) {i : Item}
    (h : Leaves (entry d) cs i rest) :
    Finds (entry d) (cs ++ t) (Item.Alike i) (rest ++ t) :=
  (item_joins newline (Nat.le_refl d) cs).finds h

theorem Entries.append (first : Entries d cs items)
    (second : Entries d s items') :
    ∃ items₁, List.Forall₂ Item.Alike items items₁ ∧
    Entries d (cs ++ '\n' :: s) (items₁ ++ items') := by
  -- Behind the last of the first items, the gap goes on into the second text.
  induction first with
  | nil done => exact ⟨[], .nil, second.congr (Gap.behind_across rfl done s)⟩
  | @cons cs rest i items first later ih =>
      have newline : OnNewLine ('\n' :: s) := by simp [OnNewLine]
      have whole : ¬Gap.terms.Cut (Gap.terms.behind cs) := by
        obtain ⟨offset, next, found, -⟩ := first
        exact fun cut => idle_entry .terms _ cut offset i next found
      obtain ⟨i', offset', found, alike⟩ := first.entry_finds newline 0
      rw [← Gap.behind_append newline (.inr whole)] at found
      obtain ⟨items₁, alike', later'⟩ := ih
      exact ⟨i' :: items₁, .cons alike alike', .cons ⟨0, _, found, rfl⟩ later'⟩

/-! ## Runs of the parser -/

abbrev entryStep (d : Nat) (found : List Item) : Parser (List Item) := do
  let i ← (do let i ← entry d; terms; return i)
  Parser.pure (i :: found)

theorem entries_of_stepsWithin (bound : List Char) {found found' : List Item}
    {offset : Nat} {next : Cursor}
    (h : (stepsWithin (entryStep d) bound found ⟨Gap.terms.behind cs,
      offset⟩).result = .found found' next) (ended : next.rest = []) :
    ∃ items, found' = items.reverse ++ found ∧ Entries d cs items := by
  -- The steps end where the text does.
  induction bound generalizing cs found offset with
  | nil =>
      cases h
      exact ⟨[], rfl, .nil ended⟩
  | cons b bound ih =>
      rw [result_stepsWithin] at h
      split at h
      · cases h
        exact ⟨[], rfl, .nil ended⟩
      · rename_i filled
        rcases Found.elim_eq_found h with
          ⟨found₁, mid, first, later⟩ | ⟨-, stopped⟩
        · obtain ⟨i, behind, taken, kept⟩ := bind_eq_found first
          obtain ⟨i', after, item, skipped⟩ := bind_eq_found taken
          cases kept
          cases skipped
          obtain ⟨items, rfl, entries⟩ := ih later
          exact ⟨i :: items, by simp, .cons ⟨offset, after, item, rfl⟩ entries⟩
        · cases stopped
          exact (filled (by simpa using ended)).elim

theorem finds_terms (cs : List Char) :
    Finds terms cs (fun _ => True) (Gap.terms.behind cs) :=
  fun _ => ⟨_, _, rfl, trivial⟩

theorem Leaves.finds_entryStep {i : Item} (h : Leaves (entry d) cs i rest)
    (found : List Item) :
    Finds (entryStep d found) cs (fun found' => ∃ i', i.Alike i' ∧
      found' = i' :: found) (Gap.terms.behind rest) := by
  have finds := h.entry_finds (t := []) nofun
  rw [List.append_nil, List.append_nil] at finds
  have spaced : Finds (do let i ← entry d; terms; return i) cs (Item.Alike i)
      (Gap.terms.behind rest) :=
    finds.bind fun i' alike => (finds_terms rest).bind fun _ _ =>
      finds_pure alike
  exact spaced.map fun i' alike => ⟨i', alike, rfl⟩

theorem Entries.finds_stepsWithin (h : Entries d cs items) (bound : List Char)
    (enough : (Gap.terms.behind cs).length ≤ bound.length) (found : List Item) :
    Finds (stepsWithin (entryStep d) bound found) (Gap.terms.behind cs)
      (fun found' => ∃ items', List.Forall₂ Item.Alike items items' ∧
        found' = items'.reverse ++ found) [] := by
  induction h generalizing bound found with
  | nil done =>
      rw [done]
      exact (stepsWithin_stop (.inl rfl) bound).imp fun _ same =>
        ⟨[], .nil, same⟩
  | @cons cs rest i items first later ih =>
      have taken : rest.length + 1 ≤ (Gap.terms.behind cs).length := by
        obtain ⟨offset, next, found, rfl⟩ := first
        exact takes_entry d _ _ _ found
      have shorter : (Gap.terms.behind rest).length ≤ rest.length := by
        simp [Gap.behind]
      have stepped := first.finds_entryStep found
      obtain ⟨c, r, front⟩ :=
        List.exists_cons_of_length_pos
          (Nat.lt_of_lt_of_le (Nat.succ_pos _) taken)
      obtain ⟨b, bound, rfl⟩ :=
        List.exists_cons_of_length_pos
          (Nat.lt_of_lt_of_le (Nat.succ_pos _) (taken.trans enough))
      rw [front] at stepped taken enough ⊢
      simp only [List.length_cons] at taken enough
      refine stepsWithin_next stepped ?_
      rintro _ ⟨i', alike, rfl⟩
      refine (ih bound (by omega) (i' :: found)).imp ?_
      rintro _ ⟨items', alike', rfl⟩
      exact ⟨i' :: items', .cons alike alike', by simp⟩

theorem entries_of_program {offset : Nat} {next : Cursor}
    (h : (program d ⟨cs, offset⟩).result = .found items next) :
    Entries d cs items := by
  rw [program, terms, result_gap_bind] at h
  obtain ⟨found, mid, listed, ended⟩ := bind_eq_found h
  obtain ⟨found, _, stepped, turned⟩ := bind_eq_found listed
  cases turned
  obtain ⟨_, _, checked, kept⟩ := bind_eq_found ended
  cases kept
  have done : mid.rest = [] := by
    by_contra filled
    simp [endOfFile, Parser.require, filled] at checked
  obtain ⟨items, rfl, entries⟩ := entries_of_stepsWithin _ stepped done
  simpa using entries

theorem Entries.finds_program (h : Entries d cs items) :
    Finds (program d) cs (List.Forall₂ Item.Alike items) [] := by
  have listed : Finds (many do let i ← entry d; terms; return i)
      (Gap.terms.behind cs) (List.Forall₂ Item.Alike items) [] := by
    have stepped : Finds (Parser.steps (entryStep d) []) (Gap.terms.behind cs)
        (fun found => ∃ items', List.Forall₂ Item.Alike items items' ∧
          found = items'.reverse ++ []) [] :=
      fun offset => h.finds_stepsWithin _ (Nat.le_refl _) [] offset
    refine stepped.bind ?_
    rintro _ ⟨items', alike, rfl⟩
    exact finds_pure (by simpa using alike)
  have ended : Finds endOfFile [] (fun _ => True) [] :=
    fun offset => ⟨(), offset, rfl, trivial⟩
  exact (finds_terms cs).bind fun _ _ => listed.bind fun _ alike =>
    ended.bind fun _ _ => finds_pure alike

/-! ## Checks -/

theorem checkFunctionName_defined {defined more : List String} {word : Word}
    (h : checkFunctionName defined word = .ok ())
    (apart : word.text ∈ more → word.text ∈ defined) :
    checkFunctionName more word = .ok () := by
  obtain ⟨free, fresh⟩ := (checkFunctionName_accepts defined word).1 ⟨(), h⟩
  obtain ⟨_, accepted⟩ :=
    (checkFunctionName_accepts more word).2 ⟨free, mt apart fresh⟩
  exact accepted

theorem checkItems_defined {defined more : List String} {p : Program}
    (h : checkItems defined items = .ok p)
    (apart : ∀ name ∈ definedNames items, name ∈ more → name ∈ defined) :
    checkItems more items = .ok p := by
  induction items generalizing defined more p with
  | nil => exact h
  | cons item items ih =>
      cases item with
      | function word params body =>
          obtain ⟨f, checked, h⟩ := checked_bind h
          obtain ⟨q, later, h⟩ := checked_bind h
          obtain ⟨_, named, checked⟩ := checked_bind checked
          have named' : checkFunctionName more word = .ok () :=
            checkFunctionName_defined named (apart word.text (.head _))
          have later' : checkItems (word.text :: more) items = .ok q :=
            ih later fun name defines inside =>
              List.mem_cons.2 ((List.mem_cons.1 inside).imp id
                (apart name (.tail _ defines)))
          rw [checkItems, checkFunction, checked_bind_iff]
          exact ⟨f, checked_bind_iff.2 ⟨(), named', checked⟩,
            checked_bind_iff.2 ⟨q, later', h⟩⟩
      | rule head action =>
          obtain ⟨r, checked, h⟩ := checked_bind h
          obtain ⟨q, later, h⟩ := checked_bind h
          exact checked_bind_iff.2 ⟨r, checked,
            checked_bind_iff.2 ⟨q, ih later apart, h⟩⟩

theorem checkItems_append {defined : List String} {p p' : Program}
    (h : checkItems defined items = .ok p) (h' : checkItems [] items' = .ok p')
    (apart : ∀ name ∈ definedNames items', name ∉ defined ∧
      name ∉ definedNames items) :
    checkItems defined (items ++ items') = .ok ⟨p.rules ++ p'.rules,
      p.functions ++ p'.functions⟩ := by
  induction items generalizing defined p with
  | nil =>
      cases h
      exact checkItems_defined h' fun name defines inside =>
        ((apart name defines).1 inside).elim
  | cons item items ih =>
      cases item with
      | function word params body =>
          obtain ⟨f, checked, h⟩ := checked_bind h
          obtain ⟨q, later, h⟩ := checked_bind h
          cases h
          have apart' : ∀ name ∈ definedNames items',
              name ∉ word.text :: defined ∧ name ∉ definedNames items := by
            intro name defines
            obtain ⟨before, behind⟩ := apart name defines
            have other : name ≠ word.text ∧ name ∉ definedNames items :=
              not_or.1 (mt List.mem_cons.2 behind)
            exact ⟨mt List.mem_cons.1 (not_or.2 ⟨other.1, before⟩), other.2⟩
          exact checked_bind_iff.2 ⟨f, checked,
            checked_bind_iff.2 ⟨_, ih later apart', rfl⟩⟩
      | rule head action =>
          obtain ⟨r, checked, h⟩ := checked_bind h
          obtain ⟨q, later, h⟩ := checked_bind h
          cases h
          exact checked_bind_iff.2 ⟨r, checked,
            checked_bind_iff.2 ⟨_, ih later apart, rfl⟩⟩

theorem checkItems_names {defined : List String} {p : Program}
    (h : checkItems defined items = .ok p) :
    p.functions.map Function.name = definedNames items := by
  rw [definedNames, ← checkItems_signatures h, List.map_map]
  rfl

/-! ## Joined texts -/

/-- The items of both texts are those of the joined text, up to their places. -/
theorem Reads.append {s₁ s₂ : String} {nesting : Nat}
    {items₁ items₂ : List Item} (h₁ : Reads s₁ nesting items₁)
    (h₂ : Reads s₂ nesting items₂) :
    ∃ items items', Reads (s₁ ++ "\n" ++ s₂) nesting items' ∧
    List.Forall₂ Item.Alike items₁ items ∧
      List.Forall₂ Item.Alike (items ++ items₂) items' := by
  obtain ⟨_, read₁⟩ := h₁
  obtain ⟨_, read₂⟩ := h₂
  obtain ⟨items, alike, entries⟩ :=
    (entries_of_program read₁).append (entries_of_program read₂)
  obtain ⟨items', offset, read, alike'⟩ := entries.finds_program 0
  have text : (s₁ ++ "\n" ++ s₂).toList = s₁.toList ++ '\n' :: s₂.toList := by
    simp
  exact ⟨items, items', ⟨_, text ▸ read⟩, alike, alike'⟩

end Awk.Source

namespace Awk

open Awk.CommandLine
    (World Arguments Step readFile programFileComplaint programOf)

theorem Program.parse_append {s₁ s₂ : String} {nesting : Nat} {p₁ p₂ : Program}
    (h₁ : Program.parse s₁ nesting = .ok p₁)
    (h₂ : Program.parse s₂ nesting = .ok p₂)
    (apart : List.Disjoint (p₁.functions.map Function.name)
      (p₂.functions.map Function.name)) :
    Program.parse (s₁ ++ "\n" ++ s₂) nesting =
      .ok ⟨p₁.rules ++ p₂.rules, p₁.functions ++ p₂.functions⟩ := by
  obtain ⟨items₁, read₁, checked₁⟩ := Program.parse_eq_ok.1 h₁
  obtain ⟨items₂, read₂, checked₂⟩ := Program.parse_eq_ok.1 h₂
  obtain ⟨items, items', read, alike, alike'⟩ := read₁.append read₂
  have checked : Source.checkItems [] items = .ok p₁ :=
    (Source.checkItems_alike alike []).ok checked₁
  rw [Source.checkItems_names checked, Source.checkItems_names checked₂]
    at apart
  have both : Source.checkItems [] (items ++ items₂) =
      .ok ⟨p₁.rules ++ p₂.rules, p₁.functions ++ p₂.functions⟩ :=
    Source.checkItems_append checked checked₂ fun name defines =>
      ⟨List.not_mem_nil, fun defined => apart defined defines⟩
  exact Program.parse_eq_ok.2 ⟨items', read,
    (Source.checkItems_alike alike' []).ok both⟩

theorem CommandLine.programOf_two {w : World} {a : Arguments}
    {f₁ f₂ s₁ s₂ : String} (files : a.programFiles = [f₁, f₂])
    (read₁ : readFile w programFileComplaint f₁ = .ok s₁)
    (read₂ : readFile w programFileComplaint f₂ = .ok s₂) :
    programOf w a = .ok (s₁ ++ "\n" ++ s₂, a.operands) := by
  have texts : [f₁, f₂].mapM (readFile w programFileComplaint) =
      .ok [s₁, s₂] := by
    simp only [List.mapM_cons, List.mapM_nil, read₁, read₂]
    rfl
  have joined : "\n".intercalate [s₁, s₂] = s₁ ++ "\n" ++ s₂ := rfl
  unfold programOf
  rw [files]
  dsimp only
  rw [texts, ← joined]
  rfl

/-- Two programs with a newline between them are one program, with the rules and
the functions of both; and program files are joined in this way. -/
theorem joined_sources_parse {s₁ s₂ : String} {nesting : Nat} {p₁ p₂ : Program}
    (h₁ : Program.parse s₁ nesting = .ok p₁)
    (h₂ : Program.parse s₂ nesting = .ok p₂)
    (apart : List.Disjoint (p₁.functions.map Function.name)
      (p₂.functions.map Function.name)) :
    Program.parse (s₁ ++ "\n" ++ s₂) nesting =
        .ok ⟨p₁.rules ++ p₂.rules, p₁.functions ++ p₂.functions⟩ ∧
      ∀ (w : World) (a : Arguments) (f₁ f₂ : String),
      a.programFiles = [f₁, f₂] →
        readFile w programFileComplaint f₁ = .ok s₁ →
        readFile w programFileComplaint f₂ = .ok s₂ →
          programOf w a = .ok (s₁ ++ "\n" ++ s₂, a.operands) :=
  ⟨Program.parse_append h₁ h₂ apart,
    fun _ _ _ _ files => CommandLine.programOf_two files⟩

theorem Program.parse_of_names {source : String} {nesting : Nat}
    {names : List String}
    (h : (Program.parse source nesting).toOption.map
      (fun p => p.functions.map Function.name) = some names) :
    ∃ p, Program.parse source nesting = .ok p ∧
      p.functions.map Function.name = names := by
  cases parsed : Program.parse source nesting with
  | error e => simp [parsed, Except.toOption] at h
  | ok p => exact ⟨p, rfl, by simpa [parsed, Except.toOption] using h⟩

/-- A pattern that ends with the text, in a comment, and a function behind it
that calls one before it. -/
theorem pattern_and_functions_join :
    let s₁ := "function f(a) \x7b return a \x7d\n$1 # all"
    let s₂ := ";function g() \x7b return f(1) \x7d\nEND \x7b print g() \x7d"
    let disk : Disk := fun path =>
      if path = "a.awk" then .file s₁.toUTF8
      else if path = "b.awk" then .file s₂.toUTF8 else .missing
    let nesting := ({} : Platform).nesting
    ∃ p₁ p₂, Program.parse s₁ nesting = .ok p₁ ∧
    Program.parse s₂ nesting = .ok p₂ ∧ p₁.functions.map Function.name = ["f"] ∧
    p₂.functions.map Function.name = ["g"] ∧
    Program.parse (s₁ ++ "\n" ++ s₂) nesting = .ok ⟨p₁.rules ++ p₂.rules,
      p₁.functions ++ p₂.functions⟩ ∧
    programOf { disk := disk, directory :=
      "/" } { programFiles := ["./a.awk", "b.awk"] } =
      .ok (s₁ ++ "\n" ++ s₂, []) := by
  intro s₁ s₂ disk nesting
  obtain ⟨p₁, h₁, names₁⟩ : ∃ p, Program.parse s₁ nesting = .ok p ∧
      p.functions.map Function.name = ["f"] :=
    Program.parse_of_names (by decide +kernel)
  obtain ⟨p₂, h₂, names₂⟩ : ∃ p, Program.parse s₂ nesting = .ok p ∧
      p.functions.map Function.name = ["g"] :=
    Program.parse_of_names (by decide +kernel)
  obtain ⟨parsed, joined⟩ :=
    joined_sources_parse h₁ h₂ (by simp [names₁, names₂])
  refine ⟨p₁, p₂, h₁, h₂, names₁, names₂, parsed, ?_⟩
  exact joined _ _ "./a.awk" "b.awk" rfl (by decide +kernel) (by decide +kernel)

end Awk
