import Awk.Proofs.Regex.Members
import Awk.Regex.Dialect
import Awk.Regex.Matcher
import Mathlib.Data.List.Infix

/-!
# Bracket expressions of programs

A bracket expression of a program lists characters and named classes.  Brackets
are ordinary characters in it, as long as they are where they cannot be taken
for its end or for the beginning of a class, and the reader of patterns knows no
named classes.  So the expression is respelled before it is read.  The main
statement is that respelling and reading lose no member and add none: the set
holds a character if and only if it is listed or in a listed class.
-/

namespace Awk.Regex

/-! ## Named classes -/

def inNamedClass : String → Char → Bool
  | "alpha", c => c.isAlpha
  | "digit", c => c.isDigit
  | "alnum", c => c.isAlphanum
  | "upper", c => c.isUpper
  | "lower", c => c.isLower
  | "space", c => c ∈ [' ', '\t', '\n', '\r', '\x0c', '\x0b']
  | "blank", c => c = ' ' ∨ c = '\t'
  | "punct", c => '!' ≤ c ∧ c ≤ '~' ∧ !c.isAlphanum
  | "print", c => ' ' ≤ c ∧ c ≤ '~'
  | "graph", c => '!' ≤ c ∧ c ≤ '~'
  | "cntrl", c => c < ' ' ∨ c = '\x7f'
  | "xdigit", c => c.isDigit ∨ 'A' ≤ c ∧ c ≤ 'F' ∨ 'a' ≤ c ∧ c ≤ 'f'
  | "word", c => c.isAlphanum ∨ c = '_'
  | _, _ => false

def classMembers : String → List Member
  | "alpha" => [.range 97 122, .range 65 90]
  | "digit" => [.range 48 57]
  | "alnum" => [.range 97 122, .range 65 90, .range 48 57]
  | "upper" => [.range 65 90]
  | "lower" => [.range 97 122]
  | "space" => [.char 32, .char 9, .char 10, .char 13, .char 12, .char 11]
  | "blank" => [.char 32, .char 9]
  | "punct" => [.range 33 47, .range 58 64, .range 91 96, .range 123 126]
  | "print" => [.range 32 126]
  | "graph" => [.range 33 126]
  | "cntrl" => [.range 0 31, .char 127]
  | "xdigit" => [.range 48 57, .range 65 70, .range 97 102]
  | "word" => [.range 97 122, .range 65 90, .range 48 57, .char 95]
  | _ => []

theorem isAlpha_eq (c : Char) : c.isAlpha = (c.isUpper || c.isLower) := rfl

theorem isUpper_eq (c : Char) : c.isUpper = decide (65 ≤ c.toNat ∧
    c.toNat ≤ 90) :=
  decide_eq_decide.2 (and_congr UInt32.le_iff_toNat_le UInt32.le_iff_toNat_le)

theorem isLower_eq (c : Char) : c.isLower = decide (97 ≤ c.toNat ∧
    c.toNat ≤ 122) := by
  have bounds : c.isLower = decide (97 ≤ c.val ∧ c.val ≤ 122) :=
    (Bool.decide_and _ _).symm
  rw [bounds]
  exact decide_eq_decide.2 (and_congr UInt32.le_iff_toNat_le
    UInt32.le_iff_toNat_le)

theorem any_classMembers (name : String) (c : Char) :
    (classMembers name).any (fun m => m.contains false c.toNat) =
      inNamedClass name c := by
  unfold classMembers inNamedClass
  rw [Bool.eq_iff_iff]
  split <;>
    simp [Member.contains, inRange, Char.isAlphanum, isAlpha_eq, isUpper_eq,
      isLower_eq, Char.isDigit, Char.le_def, Char.lt_def,
      UInt32.le_iff_toNat_le, UInt32.lt_iff_toNat_lt,
      Char.ext_iff, ← UInt32.toNat_inj] <;>
    omega

/-! ## Spellings of classes -/

def specialMembers : List Char := ['\\', ']', '-']

theorem spells_char (a : Char) (plain : a ∉ specialMembers) :
    SpellsMembers [a] [.char a.toNat] :=
  (spellsChar_plain plain).single

theorem spells_escape (a : Char) {n : Nat}
    (read : readMemberEscape a = pure (.char n)) :
    SpellsMembers ['\\', a] [.char n] :=
  (spellsChar_escaped read).single

theorem spells_range (a b : Char) (plain : a ∉ specialMembers ∧
    b ∉ specialMembers ∧ a.toNat ≤ b.toNat) :
    SpellsMembers [a, '-', b] [.range a.toNat b.toNat] :=
  (spellsChar_plain plain.1).range (spellsChar_plain plain.2.1) plain.2.2

theorem spells_lower : SpellsMembers ['a', '-', 'z'] [.range 97 122] :=
  spells_range 'a' 'z' (by decide)

theorem spells_upper : SpellsMembers ['A', '-', 'Z'] [.range 65 90] :=
  spells_range 'A' 'Z' (by decide)

theorem spells_digit : SpellsMembers ['0', '-', '9'] [.range 48 57] :=
  spells_range '0' '9' (by decide)

theorem spells_blank : SpellsMembers [' ', '\\', 't'] [.char 32, .char 9] :=
  (spells_char ' ' (by decide)).append (spells_escape 't' rfl)

theorem spells_space :
    SpellsMembers " \\t\\n\\r\\f\\v".toList (classMembers "space") :=
  spells_blank.append ((spells_escape 'n' rfl).append
    ((spells_escape 'r' rfl).append
      ((spells_escape 'f' rfl).append (spells_escape 'v' rfl))))

theorem spells_punct :
    SpellsMembers "!-/:-@\\[-`\x7b-~".toList (classMembers "punct") := by
  have bracket : SpellsMembers ['\\', '[', '-', '\x60'] [.range 91 96] :=
    (spellsChar_escaped rfl).range (spellsChar_plain (by decide)) (by decide)
  exact (spells_range '!' '/' (by decide)).append
    ((spells_range ':' '@' (by decide)).append
      (bracket.append (spells_range '\x7b' '~' (by decide))))

theorem spells_cntrl :
    SpellsMembers "\\x00-\\x1f\\x7f".toList (classMembers "cntrl") := by
  have low : SpellsMembers "\\x00-\\x1f".toList [.range 0 31] :=
    (spellsChar_hex (by decide : isHexDigit '0' = true)
      (by decide : isHexDigit '0' = true)).range
      (spellsChar_hex (by decide : isHexDigit '1' = true)
        (by decide : isHexDigit 'f' = true)) (by decide)
  exact low.append (spellsChar_hex (by decide : isHexDigit '7' = true)
    (by decide : isHexDigit 'f' = true)).single

theorem spells_namedClass {name body : String}
    (known : namedClass? name = some body) :
    SpellsMembers body.toList (classMembers name) := by
  unfold namedClass? at known
  split at known <;> cases known
  · exact spells_lower.append spells_upper
  · exact spells_digit
  · exact spells_lower.append (spells_upper.append spells_digit)
  · exact spells_upper
  · exact spells_lower
  · exact spells_space
  · exact spells_blank
  · exact spells_punct
  · exact spells_range ' ' '~' (by decide)
  · exact spells_range '!' '~' (by decide)
  · exact spells_cntrl
  · exact spells_digit.append ((spells_range 'A' 'F' (by decide)).append
      (spells_range 'a' 'f' (by decide)))
  · exact spells_lower.append (spells_upper.append
      (spells_digit.append (spells_char '_' (by decide))))

/-! ## Respelling -/

inductive BracketItem where
  | char (c : Char)
  | named (name : String)
  deriving DecidableEq

namespace BracketItem

def written : BracketItem → List Char
  | .char c => [c]
  | .named name => '[' :: ':' :: name.toList ++ [':', ']']

def holds : BracketItem → Char → Bool
  | .char d, c => c = d
  | .named name, c => inNamedClass name c

def respelled : BracketItem → List Char
  | .char c => if c = '[' ∨ c = ']' then ['\\', c] else [c]
  | .named name => ((namedClass? name).getD "").toList

def members : BracketItem → List Member
  | .char c => [.char c.toNat]
  | .named name => classMembers name

end BracketItem

open BracketItem (written respelled members)

theorem splitAtClassEnd_append {name : List Char} (colon : ':' ∉ name)
    (rest : List Char) :
    splitAtClassEnd (name ++ ':' :: ']' :: rest) = some (name, rest) := by
  induction name with
  | nil => rfl
  | cons c name ih =>
      simp only [List.mem_cons, not_or] at colon
      rw [List.cons_append, splitAtClassEnd, ih colon.2]
      · rfl
      -- The other equation asks for a colon in front.
      · rintro rest' rfl
        simp at colon

theorem classAtFront?_append {name body : String}
    (known : namedClass? name = some body) (rest : List Char) :
    classAtFront? (name.toList ++ ':' :: ']' :: rest) =
      some (body.toList, rest) := by
  have colon : ':' ∉ name.toList := by
    unfold namedClass? at known
    split at known <;> cases known <;> decide
  simp [classAtFront?, splitAtClassEnd_append colon, known]

section Steps

variable (fuel : Nat) {rest : List Char}

theorem respellMembers_class {body after : List Char}
    (found : classAtFront? rest = some (body, after)) :
    respellMembers (fuel + 1) ('[' :: ':' :: rest) =
      (body ++ (respellMembers fuel after).1,
        (respellMembers fuel after).2) := by
  simp only [respellMembers, found]

theorem respellMembers_open (other : rest.head? ≠ some ':') :
    respellMembers (fuel + 1) ('[' :: rest) =
    ('\\' :: '[' :: (respellMembers fuel rest).1,
      (respellMembers fuel rest).2) := by
  cases rest with
  | nil => rfl
  | cons c rest =>
      have other : c ≠ ':' := by simpa using other
      simp [respellMembers, other]

theorem respellMembers_plain {c : Char} (plain : c ∉ ['[', ']', '\\'])
    (rest : List Char) :
    respellMembers (fuel + 1) (c :: rest) = (c :: (respellMembers fuel rest).1,
      (respellMembers fuel rest).2) := by
  simp only [List.mem_cons, List.not_mem_nil, or_false, not_or] at plain
  simp [respellMembers, plain]

end Steps

structure Enclosed (items : List BracketItem) : Prop where
  plain : ∀ c, .char c ∈ items → c ∉ specialMembers
  known : ∀ name, .named name ∈ items → (namedClass? name).isSome
  opening : ¬ [.char '[', .char ':'] <:+: items

theorem Enclosed.tail {item : BracketItem} {items : List BracketItem}
    (enclosed : Enclosed (item :: items)) :
    Enclosed items where
  plain c among := enclosed.plain c (List.mem_cons_of_mem item among)
  known name among := enclosed.known name (List.mem_cons_of_mem item among)
  opening inside :=
    enclosed.opening (inside.trans (List.suffix_cons item items).isInfix)

theorem Enclosed.head?_ne {items : List BracketItem}
    (enclosed : Enclosed (.char '[' :: items)) (rest : List Char) :
    (items.flatMap written ++ ']' :: rest).head? ≠ some ':' := by
  cases items with
  | nil => simp
  | cons item items =>
      cases item with
      | named name => simp [written]
      | char c =>
          have other : c ≠ ':' := by
            rintro rfl
            exact enclosed.opening ⟨[], items, rfl⟩
          simpa [written] using other

/-- One item is respelled at a time. -/
theorem respellMembers_item {item : BracketItem} {items : List BracketItem}
    (enclosed : Enclosed (item :: items)) (rest : List Char) (fuel : Nat) :
    let more := items.flatMap written ++ ']' :: rest
    respellMembers (fuel + 1) (item.written ++ more) =
      (item.respelled ++ (respellMembers fuel more).1,
        (respellMembers fuel more).2) := by
  intro more
  cases item with
  | named name =>
      obtain ⟨body, known⟩ :=
        Option.isSome_iff_exists.1 (enclosed.known name (by simp))
      have step := respellMembers_class fuel (classAtFront?_append known more)
      simpa [written, respelled, known] using step
  | char c =>
      have plain := enclosed.plain c (by simp)
      simp only [specialMembers, List.mem_cons, List.not_mem_nil, or_false,
        not_or] at plain
      -- An opening bracket looks ahead for a class; every other character is
      -- copied.
      by_cases opening : c = '['
      · subst opening
        simpa [written, respelled] using
          respellMembers_open fuel (enclosed.head?_ne rest)
      · have ordinary : c ∉ ['[', ']', '\\'] := by simp [plain, opening]
        simpa [written, respelled, plain, opening]
          using respellMembers_plain fuel ordinary more

theorem respellMembers_items {items : List BracketItem}
    (enclosed : Enclosed items) (rest : List Char) {fuel : Nat}
    (enough : items.length < fuel) :
    respellMembers fuel (items.flatMap written ++ ']' :: rest) =
      (items.flatMap respelled ++ [']'], rest) := by
  induction items generalizing fuel with
  | nil =>
      obtain ⟨fuel, rfl⟩ := Nat.exists_eq_add_of_lt enough
      simp [respellMembers]
  | cons item items ih =>
      obtain ⟨fuel, rfl⟩ : ∃ k, fuel = k + 1 := ⟨fuel - 1, by omega⟩
      have step := respellMembers_item enclosed rest fuel
      dsimp only at step
      rw [ih enclosed.tail (by simpa using enough)] at step
      simpa using step

theorem length_lt_written (items : List BracketItem) (rest : List Char) :
    items.length < (items.flatMap written ++ ']' :: rest).length := by
  induction items with
  | nil => simp
  | cons item items ih =>
      have one : 1 ≤ item.written.length := by cases item <;> simp [written]
      rw [List.flatMap_cons, List.append_assoc, List.length_append,
        List.length_cons]
      omega

/-! ## Bracket expressions -/

/-- Items that can be listed in a bracket expression. -/
structure Listable (items : List BracketItem) : Prop where
  nonempty : items ≠ []
  hyphen : .char '-' ∉ items
  backslash : .char '\\' ∉ items
  known : ∀ name, .named name ∈ items → (namedClass? name).isSome
  hat : items.head? ≠ some (.char '^')
  closing : .char ']' ∉ items.tail
  opening : ¬ [.char '[', .char ':'] <:+: items

theorem Listable.plain {items : List BracketItem} (listable : Listable items)
    {c : Char} (among : .char c ∈ items) (closing : c ≠ ']') :
    c ∉ specialMembers := by
  have hyphen : c ≠ '-' := by
    rintro rfl
    exact listable.hyphen among
  have backslash : c ≠ '\\' := by
    rintro rfl
    exact listable.backslash among
  simp [specialMembers, hyphen, backslash, closing]

theorem Listable.enclosed_tail {item : BracketItem} {items : List BracketItem}
    (listable : Listable (item :: items)) :
    Enclosed items where
  plain c among :=
    listable.plain (List.mem_cons_of_mem item among)
      (by rintro rfl; exact listable.closing among)
  known name among := listable.known name (List.mem_cons_of_mem item among)
  opening inside :=
    listable.opening (inside.trans (List.suffix_cons item items).isInfix)

theorem Listable.enclosed {item : BracketItem} {items : List BracketItem}
    (listable : Listable (item :: items)) (closing : item ≠ .char ']') :
    Enclosed (item :: items) where
  plain c among := by
    refine listable.plain among ?_
    rintro rfl
    rcases List.mem_cons.1 among with rfl | among
    · exact closing rfl
    · exact listable.closing among
  known := listable.known
  opening := listable.opening

theorem Listable.written_head {item : BracketItem} {items : List BracketItem}
    (listable : Listable (item :: items)) (closing : item ≠ .char ']') :
    ∃ c cs, item.written = c :: cs ∧ c ≠ ']' ∧ c ≠ '^' := by
  have hat := listable.hat
  cases item with
  | named name => exact ⟨'[', _, rfl, by decide, by decide⟩
  | char c => exact ⟨c, [], rfl, by simpa using closing, by simpa using hat⟩

def bracketText (negated : Bool) (items : List BracketItem) (rest : List Char) :
    List Char :=
  (if negated then ['^'] else []) ++ items.flatMap written ++ ']' :: rest

theorem respellBracket_closing (negated : Bool) (cs : List Char) :
    respellBracket ((if negated then ['^'] else []) ++ ']' :: cs) =
      ('[' :: ((if negated then ['^'] else []) ++ '\\' :: ']' ::
        (respellMembers (cs.length + 1) cs).1),
        (respellMembers (cs.length + 1) cs).2) := by
  cases negated <;> rfl

theorem respellBracket_plain (negated : Bool) {c : Char}
    (other : c ≠ ']' ∧ c ≠ '^') (cs : List Char) :
    respellBracket ((if negated then ['^'] else []) ++ c :: cs) =
      ('[' :: ((if negated then ['^'] else []) ++
        (respellMembers (cs.length + 2) (c :: cs)).1),
        (respellMembers (cs.length + 2) (c :: cs)).2) := by
  cases negated <;> simp [respellBracket, other]

/-- Respelling stops behind the closing bracket, whatever follows it. -/
theorem respellBracket_items {items : List BracketItem}
    (listable : Listable items) (negated : Bool) (rest : List Char) :
    respellBracket (bracketText negated items rest) =
      ('[' :: setText negated (items.flatMap respelled), rest) := by
  obtain ⟨item, items, rfl⟩ := List.exists_cons_of_ne_nil listable.nonempty
  -- A closing bracket is listed only if it comes first, and is escaped before
  -- the members are respelled.
  by_cases closing : item = .char ']'
  · subst closing
    have step :=
      respellBracket_closing negated (items.flatMap written ++ ']' :: rest)
    rw [respellMembers_items listable.enclosed_tail rest
      (Nat.lt_succ_of_lt (length_lt_written items rest))] at step
    simpa [bracketText, setText, written, respelled] using step
  · obtain ⟨c, cs, first, other⟩ := listable.written_head closing
    have step :=
      respellBracket_plain negated other (cs ++
        (items.flatMap written ++ ']' :: rest))
    have whole : c :: (cs ++ (items.flatMap written ++ ']' :: rest)) =
        (item :: items).flatMap written ++ ']' :: rest := by
      simp [first]
    have enough : (item :: items).length <
        (cs ++ (items.flatMap written ++ ']' :: rest)).length + 2 := by
      have shorter := length_lt_written (item :: items) rest
      rw [← whole] at shorter
      exact Nat.lt_succ_of_lt shorter
    rw [whole, respellMembers_items (listable.enclosed closing) rest enough]
      at step
    simpa [bracketText, setText] using step

theorem respell_bracket {items : List BracketItem} (listable : Listable items)
    (negated : Bool) :
    respell ('[' :: bracketText negated items []) = '[' ::
      setText negated (items.flatMap respelled) := by
  have last : ∀ fuel, respellFrom fuel [] = [] := by
    intro fuel
    cases fuel <;> rfl
  simp [respell, respellFrom, respellBracket_items listable, last]

/-! ## Reading what was respelled -/

theorem spells_item {items : List BracketItem} (listable : Listable items)
    {item : BracketItem} (among : item ∈ items) :
    SpellsMembers item.respelled item.members := by
  cases item with
  | named name =>
      obtain ⟨body, known⟩ :=
        Option.isSome_iff_exists.1 (listable.known name among)
      simpa [respelled, members, known] using spells_namedClass known
  | char c =>
      simp only [respelled, members]
      split
      · rename_i bracket
        rcases bracket with rfl | rfl
        · exact spells_escape '[' rfl
        · exact spells_escape ']' rfl
      · rename_i other
        exact spells_char c (listable.plain among (not_or.1 other).2)

theorem namedClass?_head {name body : String}
    (known : namedClass? name = some body) :
    ∃ c cs, body.toList = c :: cs ∧ c ≠ '^' := by
  unfold namedClass? at known
  split at known <;> cases known <;> exact ⟨_, _, rfl, by decide⟩

theorem Listable.respelled_head {items : List BracketItem}
    (listable : Listable items) :
    (items.flatMap respelled).head? ≠ some '^' := by
  have hat := listable.hat
  obtain ⟨item, items, rfl⟩ := List.exists_cons_of_ne_nil listable.nonempty
  cases item with
  | named name =>
      obtain ⟨body, known⟩ :=
        Option.isSome_iff_exists.1 (listable.known name (by simp))
      obtain ⟨c, cs, whole, other⟩ := namedClass?_head known
      simpa [respelled, known, whole] using other
  | char c =>
      rw [List.flatMap_cons, respelled]
      split
      · simp
      · simpa using hat

theorem classMembers_ne_nil {name body : String}
    (known : namedClass? name = some body) : classMembers name ≠ [] := by
  unfold namedClass? at known
  split at known <;> cases known <;> exact List.cons_ne_nil _ _

theorem Listable.members_ne_nil {items : List BracketItem}
    (listable : Listable items) : items.flatMap members ≠ [] := by
  obtain ⟨item, items, rfl⟩ := List.exists_cons_of_ne_nil listable.nonempty
  cases item with
  | named name =>
      obtain ⟨body, known⟩ :=
        Option.isSome_iff_exists.1 (listable.known name (by simp))
      simp [members, classMembers_ne_nil known]
  | char c => simp [members]

theorem compile_bracket {items : List BracketItem} (listable : Listable items)
    (negated : Bool) :
    compile (String.ofList ('[' :: bracketText negated items [])) =
      .ok ⟨.chars ⟨negated, (items.flatMap members).eraseDups, .exact, false⟩,
        0⟩ := by
  rw [compile, compileWith, String.toList_ofList, respell_bracket listable]
  exact parse_set (.flatMap fun item among => spells_item listable among)
    listable.members_ne_nil listable.respelled_head negated

/-! ## Matching -/

theorem search?_chars (set : CharSet) (c : Char) :
    ((⟨.chars set, 0⟩ : Pattern).search? #[c] 0).isSome = set.contains c := by
  cases held : set.contains c <;>
    simp [Pattern.search?, Pattern.searchUpTo, Pattern.matchAt?, Node.run,
      takeChar, held]

theorem any_members (item : BracketItem) (c : Char) :
    item.members.any (fun m => m.contains false c.toNat) = item.holds c := by
  cases item with
  | named name => exact any_classMembers name c
  | char d =>
      have same : (d.toNat == c.toNat) = decide (c = d) := by
        rw [Bool.eq_iff_iff, beq_iff_eq, decide_eq_true_iff, Char.toNat_inj,
          eq_comm]
      simp [members, BracketItem.holds, Member.contains, same]

theorem contains_listed (items : List BracketItem) (negated : Bool) (c : Char) :
    (⟨negated, (items.flatMap members).eraseDups, .exact,
      false⟩ : CharSet).contains c =
      (items.any (·.holds c) != negated) := by
  have same : (items.flatMap members).eraseDups.any
      (fun m => m.contains false c.toNat) =
      (items.flatMap members).any (fun m => m.contains false c.toNat) := by
    rw [Bool.eq_iff_iff]
    simp only [List.any_eq_true, List.mem_eraseDups]
  simp [CharSet.contains, same, List.any_flatMap, any_members]

theorem search?_bracket {items : List BracketItem} (listable : Listable items)
    (negated : Bool) :
    ∃ p, compile (String.ofList ('[' :: bracketText negated items [])) = .ok p ∧
      ∀ c, (p.search? #[c] 0).isSome = (items.any (·.holds c) != negated) :=
  ⟨_, compile_bracket listable negated,
    fun c => by rw [search?_chars, contains_listed]⟩

/-- A bracket expression matches what it lists, its complement matches all else,
and both end behind the closing bracket, whatever follows it. -/
theorem bracket_matches_listed {items : List BracketItem}
    (listable : Listable items) :
    (∃ p, compile (String.ofList ('[' :: items.flatMap written ++ [']'])) =
      .ok p ∧
      ∀ c, (p.search? #[c] 0).isSome ↔ ∃ item ∈ items, item.holds c) ∧
    (∃ p, compile (String.ofList ('[' :: '^' :: items.flatMap written ++
      [']'])) = .ok p ∧
      ∀ c, (p.search? #[c] 0).isSome ↔ ¬ ∃ item ∈ items, item.holds c) ∧
    ∀ rest, (respellBracket (items.flatMap written ++ ']' :: rest)).2 = rest ∧
      (respellBracket ('^' :: items.flatMap written ++ ']' :: rest)).2 =
        rest := by
  obtain ⟨p, compiled, matching⟩ := search?_bracket listable false
  obtain ⟨q, complement, opposite⟩ := search?_bracket listable true
  refine ⟨⟨p, compiled, fun c => ?_⟩, ⟨q, complement, fun c => ?_⟩,
    fun rest => ⟨?_, ?_⟩⟩
  · simp [matching c]
  · simp [opposite c]
  · exact congrArg Prod.snd (respellBracket_items listable false rest)
  · exact congrArg Prod.snd (respellBracket_items listable true rest)

/-- Both brackets and the digits, but not the colons around the name. -/
theorem brackets_and_digits_matched :
    Listable [.char ']', .char '[', .named "digit", .char '^', .char '&'] ∧
      ∃ p, compile "[][[:digit:]^&]" = .ok p ∧ (p.search? #[']'] 0).isSome ∧
      (p.search? #['['] 0).isSome ∧
        (p.search? #['7'] 0).isSome ∧ ¬ (p.search? #[':'] 0).isSome := by
  have listable : Listable [.char ']', .char '[', .named "digit", .char '^',
      .char '&'] :=
    ⟨by decide, by decide, by decide, by simp [namedClass?], by decide, by
      decide, by decide⟩
  obtain ⟨⟨p, compiled, matching⟩, -, -⟩ := bracket_matches_listed listable
  refine ⟨listable, p, compiled, ?_⟩
  simp only [matching]
  decide

end Awk.Regex
