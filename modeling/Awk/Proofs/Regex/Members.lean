import Awk.Regex.Parser

/-!
# Reading the members of a bracket

A bracket is read token by token with one token at hand, so that what a text
spells depends on what follows it: a hyphen behind a character begins a range.
`SpellsMembers cs ms` says that `cs` is read as the members `ms` whatever
follows it, if that is no hyphen.  Texts of this kind can be put together, and
between brackets they are whole patterns.
-/

namespace Awk.Regex

variable {α β : Type} {r r' : Reading} {s : Source} {c : Char} {token : Token}
    {cs : List Char} {n : Nat}

/-! ## Tokens -/

namespace Read

theorem bind_ok {x : Read α} {a : α} (h : x r = .ok (a, r')) (f : α → Read β) :
    (x >>= f) r = f a r' := by
  simp only [bind, StateT.bind, h, Except.bind]

theorem advance_apply (loaded : Source.load r.source.rest = .ok s) :
    advance r = .ok ((), { r with source := s }) := by
  have here : (get : Read Reading) r = .ok (r, r) := rfl
  have lifted : (liftM (Source.load r.source.rest) : Read Source) r =
      .ok (s, r) := by
    rw [loaded]
    rfl
  rw [advance, bind_ok here, bind_ok lifted]
  rfl

theorem next_apply (here : r.source.next = some token)
    (loaded : Source.load r.source.rest = .ok s) :
    next r = .ok (some token, { r with source := s }) := by
  have peeked : peek r = .ok (some token, r) := by
    rw [← here]
    rfl
  rw [next, bind_ok peeked]
  exact bind_ok (advance_apply loaded) _

theorem accept_apply (here : r.source.next = some (.plain c))
    (loaded : Source.load r.source.rest = .ok s) :
    accept c r = .ok (true, { r with source := s }) := by
  have peeked : peek r = .ok (some (.plain c), r) := by
    rw [← here]
    rfl
  rw [accept, bind_ok peeked, if_pos (by simp)]
  exact bind_ok (advance_apply loaded) _

theorem accept_other (other : r.source.next ≠ some (.plain c)) :
    accept c r = .ok (false, r) := by
  have peeked : peek r = .ok (r.source.next, r) := rfl
  rw [accept, bind_ok peeked, if_neg (by simpa using other)]
  rfl

theorem takeWhile_succ {p : Char → Bool} {taken : List Char}
    (here : r.source.next = some (.plain c)) (holds : p c = true)
    (loaded : Source.load r.source.rest = .ok s)
    (more : takeWhile p n { r with source := s } = .ok (taken, r')) :
    takeWhile p (n + 1) r = .ok (c :: taken, r') := by
  have peeked : peek r = .ok (some (.plain c), r) := by
    rw [← here]
    rfl
  rw [takeWhile, bind_ok peeked]
  simp only [holds, if_true]
  rw [bind_ok (advance_apply loaded), bind_ok more]
  rfl

end Read

theorem load_plain (backslash : c ≠ '\\') (rest : List Char) :
    Source.load (c :: rest) = .ok ⟨some (.plain c), rest⟩ := by
  unfold Source.load
  split <;> simp_all

theorem load_next_ne (loaded : Source.load cs = .ok s)
    (head : cs.head? ≠ some c) : s.next ≠ some (.plain c) := by
  unfold Source.load at loaded
  split at loaded <;> cases loaded <;> simp_all

/-! ## Characters -/

structure SpellsChar (cs : List Char) (n : Nat) : Prop where
  written : cs ≠ []
  hyphen : cs.head? ≠ some '-'
  read : ∀ {rest : List Char} {s : Source}, Source.load rest = .ok s →
    ∃ token t s', Source.load (cs ++ rest) = .ok ⟨some token, t⟩ ∧
    token ≠ .plain ']' ∧ Source.load t = .ok s' ∧
    ∀ r : Reading, readMember token { r with source := s' } =
      .ok (.char n, { r with source := s })

theorem spellsChar_plain (special : c ∉ ['\\', ']', '-']) :
    SpellsChar [c] c.toNat := by
  simp only [List.mem_cons, List.not_mem_nil, or_false, not_or] at special
  refine ⟨by simp, by simpa using special.2.2, fun {rest s} loaded => ?_⟩
  exact ⟨.plain c, rest, s, load_plain special.1 rest, by
    simpa using special.2.1, loaded, fun r => rfl⟩

theorem spellsChar_escaped (read : readMemberEscape c = pure (.char n)) :
    SpellsChar ['\\', c] n := by
  refine ⟨by simp, by simp, fun {rest s} loaded => ⟨.escaped c, rest, s,
    rfl, by simp, loaded, fun r => ?_⟩⟩
  rw [readMember, read]
  rfl

theorem spellsChar_hex {a b : Char} (first : isHexDigit a = true)
    (second : isHexDigit b = true) :
    SpellsChar ['\\', 'x', a, b] (valueIn 16 [a, b]) := by
  have digit : ∀ d, isHexDigit d = true → d ≠ '\\' := by
    rintro _ hex rfl
    contradiction
  refine ⟨by simp, by simp, fun {rest s} loaded => ?_⟩
  refine ⟨.escaped 'x', a :: b :: rest, _, rfl, by simp,
    load_plain (digit a first) _, fun r => ?_⟩
  have taken : ∀ r : Reading, Read.takeWhile isHexDigit 2 { r with
    source := ⟨some (.plain a), b :: rest⟩ } = .ok ([a, b],
    { r with source := s }) := fun r =>
    Read.takeWhile_succ rfl first (load_plain (digit b second) rest)
      (Read.takeWhile_succ rfl second loaded rfl)
  exact Read.bind_ok (Read.bind_ok (taken r) _) _

/-! ## Members -/

structure SpellsMembers (cs : List Char) (members : List Member) : Prop where
  enough : members.length ≤ cs.length
  hyphen : cs.head? ≠ some '-'
  read : ∀ {rest : List Char} {s : Source}, Source.load rest = .ok s →
    rest.head? ≠ some '-' → ∃ s', Source.load (cs ++ rest) = .ok s' ∧
    ∀ (fuel : Nat) (acc : List Member) (r : Reading),
    readMembers (fuel + members.length) acc { r with
      source := s' } = readMembers fuel (members.reverse ++ acc) { r with
        source := s }

theorem SpellsMembers.nil : SpellsMembers [] [] :=
  ⟨by simp, by simp, fun {_ s} loaded _ => ⟨s, loaded, fun _ _ _ => rfl⟩⟩

theorem SpellsMembers.append {cs' : List Char} {ms ms' : List Member}
    (first : SpellsMembers cs ms) (second : SpellsMembers cs' ms') :
    SpellsMembers (cs ++ cs') (ms ++ ms') := by
  refine ⟨?_, ?_, fun {rest s} loaded other => ?_⟩
  · have := first.enough
    have := second.enough
    simp only [List.length_append]
    omega
  · cases cs with
    | nil => exact second.hyphen
    | cons c cs => exact first.hyphen
  · have between : (cs' ++ rest).head? ≠ some '-' := by
      cases cs' with
      | nil => exact other
      | cons c cs' => exact second.hyphen
    obtain ⟨s₁, loaded₁, read₁⟩ := second.read loaded other
    obtain ⟨s₂, loaded₂, read₂⟩ := first.read loaded₁ between
    refine ⟨s₂, by rwa [List.append_assoc], fun fuel acc r => ?_⟩
    have count : fuel + (ms ++ ms').length = fuel + ms'.length + ms.length := by
      simp only [List.length_append]
      omega
    rw [count, read₂, read₁, List.reverse_append, List.append_assoc]

theorem SpellsMembers.flatMap {ι : Type} {items : List ι} {text : ι → List Char}
    {members : ι → List Member}
    (spells : ∀ i ∈ items, SpellsMembers (text i) (members i)) :
    SpellsMembers (items.flatMap text) (items.flatMap members) := by
  induction items with
  | nil => exact .nil
  | cons i items ih =>
      simp only [List.forall_mem_cons] at spells
      simpa using spells.1.append (ih spells.2)

theorem SpellsChar.single (spells : SpellsChar cs n) :
    SpellsMembers cs [.char n] := by
  refine ⟨List.length_pos_iff.2 spells.written, spells.hyphen,
    fun {rest s} loaded other => ?_⟩
  obtain ⟨token, t, s', whole, closing, next, read⟩ := spells.read loaded
  refine ⟨_, whole, fun fuel acc r => ?_⟩
  have alone : Read.accept '-' { r with source := s } =
      .ok (false, { r with source := s }) :=
    Read.accept_other (load_next_ne loaded other)
  rw [List.length_singleton, readMembers,
    Read.bind_ok (Read.next_apply rfl next)]
  simp only [beq_iff_eq, closing, Bool.and_eq_true, false_and, if_false]
  rw [Read.bind_ok (read r), Read.bind_ok alone]
  rfl

theorem SpellsChar.range {cs' : List Char} {lo hi : Nat}
    (first : SpellsChar cs lo) (last : SpellsChar cs' hi) (ordered : lo ≤ hi) :
    SpellsMembers (cs ++ '-' :: cs') [.range lo hi] := by
  refine ⟨by simp; omega, ?_, fun {rest s} loaded _ => ?_⟩
  · have := first.written
    cases cs with
    | nil => contradiction
    | cons c cs => exact first.hyphen
  · obtain ⟨token', t', s₁, whole', closing', next', read'⟩ := last.read loaded
    obtain ⟨token, t, s₂, whole, closing, next, read⟩ :=
      first.read (load_plain (by decide : '-' ≠ '\\') (cs' ++ rest))
    refine ⟨_, by simpa using whole, fun fuel acc r => ?_⟩
    have dash : Read.accept '-' { r with
      source := ⟨some (.plain '-'), cs' ++ rest⟩ } =
        .ok (true, { r with source := ⟨some token', t'⟩ }) :=
      Read.accept_apply rfl whole'
    have upper : Read.next { r with source := ⟨some token', t'⟩ } =
        .ok (some token', { r with source := s₁ }) :=
      Read.next_apply rfl next'
    rw [List.length_singleton, readMembers,
      Read.bind_ok (Read.next_apply rfl next)]
    simp only [beq_iff_eq, closing, Bool.and_eq_true, false_and, if_false]
    rw [Read.bind_ok (read r), Read.bind_ok dash, if_pos rfl,
      Read.bind_ok upper]
    -- The last case of the match is taken, since the token is no closing
    -- bracket.
    simp only
    rw [Read.bind_ok (read' r)]
    simp [Nat.not_lt.2 ordered]

/-! ## Whole patterns -/

theorem readMembers_closing {members : List Member} (nonempty : members ≠ [])
    (loaded : Source.load cs = .ok s) (fuel : Nat) (r : Reading) :
    readMembers (fuel + 1) members { r with
      source := ⟨some (.plain ']'), cs⟩ } =
      .ok (members.reverse, { r with source := s }) := by
  rw [readMembers, Read.bind_ok (Read.next_apply rfl loaded)]
  simp only [beq_self_eq_true, Bool.true_and, Bool.not_eq_true',
    List.isEmpty_eq_false_iff.2 nonempty, if_true]
  rfl

def setText (negated : Bool) (cs : List Char) : List Char :=
  (if negated then ['^'] else []) ++ cs ++ [']']

theorem length_le_of_load (loaded : Source.load cs = .ok s) :
    cs.length ≤ s.rest.length + 2 := by
  unfold Source.load at loaded
  split at loaded <;> cases loaded <;> simp

theorem readMembers_apply {members : List Member}
    (spells : SpellsMembers cs members) (nonempty : members ≠ []) :
    ∃ s, Source.load (cs ++ [']']) = .ok s ∧ ∀ r : Reading,
      readMembers (s.rest.length + 2) [] { r with
        source := s } = .ok (members, { r with source := ⟨none, []⟩ }) := by
  obtain ⟨s, loaded, read⟩ :=
    spells.read (load_plain (by decide : ']' ≠ '\\') []) (by simp)
  refine ⟨s, loaded, fun r => ?_⟩
  have room := length_le_of_load loaded
  have enough := spells.enough
  simp only [List.length_append, List.length_singleton] at room
  obtain ⟨fuel, count⟩ : ∃ fuel, s.rest.length + 2 =
      fuel + 1 + members.length :=
    ⟨s.rest.length + 1 - members.length, by omega⟩
  rw [count, read, List.append_nil,
    readMembers_closing (by simpa using nonempty) rfl, List.reverse_reverse]

theorem readSet_apply {members : List Member}
    (spells : SpellsMembers cs members) (nonempty : members ≠ [])
    (hat : cs.head? ≠ some '^') (negated : Bool) (flags : Flags) :
    ∃ s, Source.load (setText negated cs) = .ok s ∧
    ∀ r : Reading, readSet flags { r with source := s } =
      .ok (.chars ⟨negated, members.eraseDups, flags.folding, flags.ascii⟩,
        { r with source := ⟨none, []⟩ }) := by
  obtain ⟨s, loaded, read⟩ := readMembers_apply spells nonempty
  have rest : ∀ (negated : Bool) (r : Reading), (do
      let members ← readMembers (← Read.room) []
      return Node.chars ⟨negated, members.eraseDups, flags.folding,
        flags.ascii⟩ : Read Node) { r with source := s } =
        .ok (.chars ⟨negated, members.eraseDups, flags.folding, flags.ascii⟩,
          { r with source := ⟨none, []⟩ }) := by
    intro negated r
    have room : Read.room { r with source := s } =
        .ok (s.rest.length + 2, { r with source := s }) := rfl
    rw [Read.bind_ok room, Read.bind_ok (read r)]
    rfl
  cases negated with
  | true =>
      refine ⟨_, load_plain (by decide) _, fun r => ?_⟩
      rw [readSet, Read.bind_ok (Read.accept_apply rfl loaded)]
      exact rest true r
  | false =>
      have other : s.next ≠ some (.plain '^') := by
        refine load_next_ne loaded ?_
        cases cs with
        | nil => simp
        | cons c cs => exact hat
      refine ⟨s, loaded, fun r => ?_⟩
      rw [readSet, Read.bind_ok (Read.accept_other other)]
      exact rest false r

theorem readItems_set {fuel : Nat} {place : Place} {acc : List Item}
    {node : Node} {rest : List Char} (terse : place.flags.verbose = false)
    (loaded : Source.load rest = .ok s)
    (read : readSet place.flags { r with source := s } = .ok (node, r')) :
    readItems (fuel + 1) place acc { r with
      source := ⟨some (.plain '['), rest⟩ } =
      readItems fuel place (⟨node, true⟩ :: acc) r' := by
  have peeked : Read.peek { r with source := ⟨some (.plain '['), rest⟩ } =
      .ok (some (.plain '['), { r with source := ⟨some (.plain '['), rest⟩ }) :=
    rfl
  rw [readItems, Read.bind_ok peeked]
  simp only [terse, Bool.false_and, Bool.false_eq_true, if_false]
  change (Read.advance >>= fun _ => readSet place.flags >>=
    fun node => readItems fuel place (⟨node, true⟩ :: acc)) _ = _
  rw [Read.bind_ok (Read.advance_apply loaded), Read.bind_ok read]

theorem readItems_nil (fuel : Nat) (place : Place) (acc : List Item)
    (ended : r.source.next = none) :
    readItems (fuel + 1) place acc r = .ok (acc, r) := by
  have peeked : Read.peek r = .ok (none, r) := by
    rw [← ended]
    rfl
  rw [readItems, Read.bind_ok peeked]
  rfl

/-- What stands between brackets is a whole pattern: the set of the members that
it spells. -/
theorem parse_set {members : List Member} (spells : SpellsMembers cs members)
    (nonempty : members ≠ []) (hat : cs.head? ≠ some '^') (negated : Bool) :
    Pattern.parse ('[' :: setText negated cs) =
      .ok ⟨.chars ⟨negated, members.eraseDups, .exact, false⟩, 0⟩ := by
  let start : Reading := { source := ⟨some (.plain '['), setText negated cs⟩ }
  let last : Reading := { source := ⟨none, []⟩ }
  let place : Place := ⟨{}, true, true⟩
  obtain ⟨s, loaded, read⟩ := readSet_apply spells nonempty hat negated {}
  obtain ⟨fuel, count⟩ : ∃ fuel, 4 * ('[' :: setText negated cs).length + 4 =
      fuel + 3 :=
    ⟨4 * ('[' :: setText negated cs).length + 1, by omega⟩
  let node : Node := .chars ⟨negated, members.eraseDups, .exact, false⟩
  have items : readItems (fuel + 2) place [] start =
      .ok ([⟨node, true⟩], last) := by
    rw [readItems_set (r := start) rfl loaded (read start)]
    exact readItems_nil fuel place _ rfl
  have whole : readAlternatives (fuel + 3) place start = .ok (node, last) := by
    rw [readAlternatives, Read.bind_ok items,
      Read.bind_ok (Read.accept_other (by simp [last]))]
    rfl
  have parsed : readPattern ('[' :: setText negated cs).length {} start =
      .ok (⟨node, 0⟩, last) := by
    rw [readPattern, count, Read.bind_ok whole]
    rfl
  have loaded : Source.load ('[' :: setText negated cs) = .ok start.source :=
    load_plain (by decide) _
  rw [Pattern.parse, loaded]
  change (readPattern _ {}).run' start = _
  rw [StateT.run', parsed]
  rfl

end Awk.Regex
