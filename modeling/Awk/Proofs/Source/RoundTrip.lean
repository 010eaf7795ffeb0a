import Awk.Platform
import Awk.Proofs.Source.Reading

/-!
# Programs of one phrase

A phrase in braces is a program with one rule, whose only statement is the tree
of the phrase.  There is nothing else that such a program can be, and the one
thing that can go wrong is that the phrase is too deep.
-/

namespace Awk.Source

open Awk.Source.Parser (many steps token)

variable {sub : Levels} {c : Char} {cs rest : List Char} {d : Nat}

/-! ## Statements -/

def statementWords : List String :=
  ["if", "while", "do", "for", "print", "printf", "nextfile", "next", "break",
    "continue", "exit", "return", "delete"]

structure Unmarked (cs : List Char) : Prop where
  brace : Misses (symbol "\x7b") cs
  words : ∀ words ⊆ statementWords, scanWord words cs = none

def exprStatement (sub : Levels) : Parser Statement := do
  let s ← (do let e ← sub (.expr true); return Statement.expr e)
  blank
  statementEnd
  return s

theorem Unmarked.statementBody_agree (h : Unmarked cs)
    (nested : Parser Statement) :
    Agree (statementBody sub nested) (exprStatement sub) cs := by
  have missed : ∀ words ⊆ statementWords,
      Misses (token (scanWord words)) cs := fun words inside =>
    token_misses (h.words words inside)
  refine h.brace.bind.bind.orElse.trans ?_
  refine (missed ["if"] (by decide)).bind.orElse.trans ?_
  refine (missed ["while"] (by decide)).bind.orElse.trans ?_
  refine (missed ["do"] (by decide)).bind.orElse.trans ?_
  refine (missed ["for"] (by decide)).bind.orElse.trans ?_
  refine (missed ["for"] (by decide)).bind.orElse.trans ?_
  refine Agree.bind ?_
  refine (missed ["print", "printf"] (by decide)).bind.orElse.trans ?_
  refine (missed ["nextfile"] (by decide)).bind.orElse.trans ?_
  refine (missed ["next"] (by decide)).bind.orElse.trans ?_
  refine (missed ["break"] (by decide)).bind.orElse.trans ?_
  refine (missed ["continue"] (by decide)).bind.orElse.trans ?_
  refine (missed ["exit"] (by decide)).bind.orElse.trans ?_
  refine (missed ["return"] (by decide)).bind.orElse.trans ?_
  exact (missed ["delete"] (by decide)).bind.orElse

theorem unmarked_at (start : isNameStart c = false) (other : c ≠ '\x7b') :
    Unmarked (c :: cs) where
  brace := symbol_misses_at (by simpa [startOtherwise] using other.symm)
  words := by
    intro words inside
    have all : areWords statementWords = true := by decide
    refine scanWord_misses_at (List.all_eq_true.2 fun word member => ?_) start
    exact List.all_eq_true.1 all word (inside member)

theorem unmarked_word (word : String)
    (inside : word.toList.all Text.isAsciiWord = true)
    (start : ∃ b r, word.toList = b :: r ∧ isNameStart b = true)
    (ends : isBreak c = true) (other : word ∉ statementWords) :
    Unmarked (word.toList ++ c :: rest) where
  brace := by
    obtain ⟨b, r, text, start⟩ := start
    have brace : b ≠ '\x7b' := by
      rintro rfl
      contradiction
    rw [text]
    exact symbol_misses_at (by simpa [startOtherwise] using brace.symm)
  words := by
    intro words subset
    refine scanWord_of_other inside ends ?_
    simp only [List.contains_eq_mem, decide_eq_false_iff_not]
    exact fun member => other (subset member)

theorem FreeName.unmarked (name : FreeName) (ends : isBreak c = true) :
    Unmarked (name.val.toList ++ c :: rest) := by
  have taken : statementWords ⊆ keywords ++ builtinNames := by decide
  have free := isFreeName_other name.property
  simp only [List.contains_eq_mem, decide_eq_false_iff_not] at free
  exact unmarked_word name (isFreeName_inside name.property) name.start ends
    fun member => free (taken member)

theorem Spot.unmarked (s : Spot) (bound : bounded rest = true) :
    Unmarked (s.text ++ rest) := by
  cases s with
  | «variable» name =>
      obtain ⟨b, r, rfl, ends, -⟩ := bounded_head bound
      rw [Spot.text]
      exact name.unmarked ends
  | element array key more =>
      rw [Spot.text]
      simp only [List.append_assoc, List.cons_append]
      exact array.unmarked (by decide)
  | field index =>
      rw [Spot.text]
      exact unmarked_at (by decide) (by decide)

theorem Phrase.unmarked (x : Phrase) (closed : closes rest = true) :
    Unmarked (x.text ++ rest) := by
  have paren : ∀ cs, Unmarked ('(' :: cs) :=
    fun cs => unmarked_at (by decide) (by decide)
  cases x with
  | number n =>
      have filled : Decimal.digits n ≠ [] := Nat.toDigits_ne_nil
      obtain ⟨c, r, text⟩ := List.exists_cons_of_ne_nil filled
      have digit : c.isDigit = true :=
        digits_isDigit n c (text ▸ List.mem_cons_self)
      obtain ⟨-, start, -⟩ := isDigit_ordinary digit
      have brace : c ≠ '\x7b' := by
        rintro rfl
        contradiction
      rw [Phrase.text, text]
      exact unmarked_at start brace
  | string s =>
      rw [Phrase.text]
      exact unmarked_at (by decide) (by decide)
  | read spot =>
      rw [Phrase.text]
      exact spot.unmarked (closes_bounded closed)
  | binary op left right =>
      rw [Phrase.text]
      exact paren _
  | unary op operand =>
      rw [Phrase.text]
      cases op <;> exact unmarked_at (by decide) (by decide)
  | ternary condition yes no =>
      rw [Phrase.text]
      exact paren _
  | call name args =>
      rw [Phrase.text]
      simp only [List.append_assoc, List.cons_append]
      rcases name.property with free | builtin
      · exact FreeName.unmarked ⟨name.val, free⟩ (by decide)
      · have others : ∀ word ∈ builtinNames, word ∉ statementWords := by decide
        exact unmarked_word name (builtin_inside builtin) name.start (by decide)
          (others name builtin)
  | assign op spot value =>
      have bound := (assignment_facts op (value.text ++ ')' :: rest)).1
      rw [Phrase.text]
      simp only [List.append_assoc, List.cons_append, List.nil_append]
      exact spot.unmarked bound
  | increment spot up returnsOld =>
      cases returnsOld with
      | true =>
          rw [Phrase.text, List.append_assoc]
          exact spot.unmarked (by cases up <;> rfl)
      | false =>
          rw [Phrase.text]
          cases up <;> exact unmarked_at (by decide) (by decide)
  | member key array =>
      rw [Phrase.text]
      exact paren _
  | getline spot file =>
      obtain ⟨b, r, behind, ends⟩ :=
        getline_break spot (fileText_bounded file closed)
      rw [Phrase.text, List.append_assoc, List.append_assoc, behind]
      exact unmarked_word "getline" (by decide) ⟨'g', _,
        rfl, by decide⟩ ends (by decide)
  | tuple first second more =>
      rw [Phrase.text]
      exact paren _

theorem Phrase.depth_ge (x : Phrase) : 4 ≤ x.depth := by
  unfold Phrase.depth
  split
  all_goals omega

/-! ## Actions -/

theorem many_once {α : Type} {p : Parser α} {P : α → Prop} {fits : Prop}
    (found : Yields fits p (c :: cs) P rest)
    (stop : fits → rest = [] ∨ Misses p rest) :
    Yields fits (many p) (c :: cs) (fun as => ∃ a, as = [a] ∧ P a) rest := by
  have step : Yields fits (do let a ← p; Parser.pure [a]) (c :: cs)
      (fun as => ∃ a, as = [a] ∧ P a) rest :=
    found.andThen fun _ a known => finds_pure ⟨a, rfl, known⟩
  have once :
      Yields fits (steps (fun found => do let a ← p; Parser.pure (a :: found))
        []) (c :: cs) (fun as => ∃ a, as = [a] ∧ P a) rest :=
    step.once fun yes _ _ => (stop yes).imp_right fun missed => missed.bind
  refine once.andThen ?_
  rintro - _ ⟨a, rfl, known⟩
  exact finds_pure ⟨a, rfl, known⟩

theorem statement_misses (deep : 4 < d) :
    Misses (statement d) ('\x7d' :: rest) := by
  obtain ⟨d, rfl⟩ := Nat.exists_eq_add_of_lt deep
  have unmarked : Unmarked ('\x7d' :: rest) :=
    unmarked_at (by decide) (by decide)
  refine (unmarked.statementBody_agree _).misses ?_
  exact (expr_misses_at (by decide) (by omega)).bind.bind

section Actions

variable (x : Phrase) (d : Nat) (rest : List Char)

theorem statement_yields :
    Yields (x.depth < d) (statement d) (x.text ++ ' ' :: '\x7d' :: rest)
      (fun s => s.check = .ok (.expr x.expr))
      ('\x7d' :: rest) := by
  cases d with
  | zero => exact ⟨nofun, fun _ _ => rfl⟩
  | succ d =>
      have closed : closes (' ' :: '\x7d' :: rest) = true := rfl
      have ended : Finds statementEnd ('\x7d' :: rest) (fun _ => True)
          ('\x7d' :: rest) := fun offset =>
        ⟨(), offset, rfl, trivial⟩
      have read :
          Yields (x.depth < d + 1)
            (do let e ← expression d (.expr true); return Statement.expr e)
            (x.text ++ ' ' :: '\x7d' :: rest) (fun s => s.check =
              .ok (.expr x.expr)) (' ' :: '\x7d' :: rest) := by
        refine ((x.reads d _ closed).map fun t means => ?_).iff
          Nat.lt_succ_iff.symm
        simp only [Means] at means
        rw [Statement.check, means]
        rfl
      refine ((x.unmarked closed).statementBody_agree (statement d)).yields ?_
      refine read.andThen fun _ s checked => ?_
      refine (finds_gap_space .line rfl).bind fun _ _ => ?_
      exact ended.bind fun _ _ => finds_pure checked

theorem block_yields :
    Yields (x.depth < d) (block (statement d)) ('\x7b' :: ' ' ::
      (x.text ++ ' ' :: '\x7d' :: rest))
      (fun statements => Statement.checkAll statements = .ok [.expr x.expr])
        rest := by
  obtain ⟨c, r, text, opens⟩ := x.text_opens
  have solid := isSolid_of_opensExpr opens
  have item : Yields (x.depth < d) (do let s ← statement d; terms; return s)
      (x.text ++ ' ' :: '\x7d' :: rest) (fun s => s.check = .ok (.expr x.expr))
      ('\x7d' :: rest) := by
    refine (statement_yields x d rest).andThen fun _ s checked => ?_
    exact (finds_gap .terms rfl).bind fun _ _ => finds_pure checked
  refine (finds_symbol "\x7b" (' ' :: (x.text ++ ' ' :: '\x7d' :: rest))).yields
    fun _ _ => ?_
  rw [text, List.cons_append] at item ⊢
  refine (finds_gap_space .terms solid).yields fun _ _ => ?_
  have deep : x.depth < d → 4 < d := Nat.lt_of_le_of_lt x.depth_ge
  refine (many_once item fun yes =>
    .inr (statement_misses (deep yes)).bind).andThen ?_
  rintro - _ ⟨s, rfl, checked⟩
  refine (finds_symbol "\x7d" rest).bind fun _ _ => finds_pure ?_
  rw [Statement.checkAll, checked]
  rfl

/-- A phrase in braces is a program of one rule. -/
theorem program_yields :
    Yields (x.depth < d) (program d) ('\x7b' :: ' ' ::
      (x.text ++ [' ', '\x7d']))
      (fun items => checkItems [] items = .ok ⟨[⟨.always, [.expr x.expr]⟩], []⟩)
        [] := by
  have blank : Finds terms [] (fun _ => True) [] :=
    fun offset => ⟨(), offset, rfl, trivial⟩
  have ended : Finds endOfFile [] (fun _ => True) [] :=
    fun offset => ⟨(), offset, rfl, trivial⟩
  have action :
      Yields (x.depth < d) (item (expression d (.expr true)) (statement d))
        ('\x7b' :: ' ' :: (x.text ++ [' ', '\x7d']))
        (fun i => checkItems [] [i] = .ok ⟨[⟨.always, [.expr x.expr]⟩], []⟩)
        [] := by
    refine (token_misses (scanWord_misses_at (by decide) (by
      decide))).bind.orElse.yields ?_
    refine (keyword_misses_at (by decide) (by decide)).bind.orElse.yields ?_
    refine (keyword_misses_at (by decide) (by decide)).bind.orElse.yields ?_
    refine ((block_yields x d []).map fun statements checked => ?_).orElse
    have rule : checkRule .always (some statements) =
        .ok ⟨.always, [.expr x.expr]⟩ := by
      simp only [checkRule, Head.check, checked]
      rfl
    rw [checkItems, rule]
    rfl
  refine (finds_gap .terms rfl).yields fun _ _ => ?_
  have alone :
      Yields (x.depth < d)
        (do
          let i ← item (expression d (.expr true)) (statement d)
          terms
          return i)
        ('\x7b' :: ' ' :: (x.text ++ [' ', '\x7d']))
        (fun i => checkItems [] [i] =
          .ok ⟨[⟨.always, [.expr x.expr]⟩], []⟩) [] :=
    action.andThen fun _ i checked => blank.bind fun _ _ => finds_pure checked
  refine (many_once alone fun _ => .inl rfl).andThen ?_
  rintro - _ ⟨i, rfl, checked⟩
  exact ended.bind fun _ _ => finds_pure checked

end Actions

/-! ## Sources -/

def Phrase.source (x : Phrase) : String :=
  "\x7b " ++ String.ofList x.text ++ " \x7d"

theorem Phrase.source_toList (x : Phrase) :
    x.source.toList = '\x7b' :: ' ' :: (x.text ++ [' ', '\x7d']) := by
  simp [Phrase.source]

theorem parse_of_shallow {x : Phrase} {nesting : Nat}
    (shallow : x.depth < nesting) :
    Program.parse x.source nesting = .ok ⟨[⟨.always, [.expr x.expr]⟩], []⟩ := by
  obtain ⟨items, offset, found, checked⟩ :=
    (program_yields x nesting).finds shallow 0
  simp only [Program.parse, x.source_toList, found, checked]
  rfl

theorem parse_of_deep {x : Phrase} {nesting : Nat} (deep : nesting ≤ x.depth) :
    Program.parse x.source nesting = .error ⟨.nestedTooDeeply, none⟩ := by
  have sunk := (program_yields x nesting).sinks (Nat.not_lt.2 deep) 0
  simp only [Program.parse, x.source_toList, sunk]

/--
Reading undoes writing, as far as the levels may nest; and a phrase that is not
read is reported as too deep.
-/
theorem parse_source_of_phrase (x : Phrase) (nesting : Nat) :
    Program.parse x.source nesting =
      if x.depth < nesting then .ok ⟨[⟨.always, [.expr x.expr]⟩], []⟩
      else .error ⟨.nestedTooDeeply, none⟩ := by
  split
  · next shallow => exact parse_of_shallow shallow
  · next deep => exact parse_of_deep (Nat.not_lt.1 deep)

def negated : Nat → Phrase
  | 0 => .number 0
  | k + 1 => .unary .minus (negated k)

theorem negated_depth (k : Nat) : (negated k).depth = 5 * k + 4 := by
  induction k with
  | zero => rw [negated, Phrase.depth]
  | succ k ih =>
      rw [negated, Phrase.depth, ih]
      omega

/-- Whatever the limit is, there is a tree whose text is too deep for it. -/
theorem negations_too_deep :
    (∀ nesting, Program.parse (negated nesting).source nesting =
      .error ⟨.nestedTooDeeply, none⟩) ∧
    Program.parse (negated 2500).source ({} : Platform).nesting =
      .error ⟨.nestedTooDeeply, none⟩ := by
  constructor
  · intro nesting
    refine parse_of_deep ?_
    rw [negated_depth]
    omega
  · refine parse_of_deep ?_
    rw [negated_depth]
    decide

end Awk.Source
