import Awk.Proofs.Joining.Statements

/-!
# Items with more text behind them

An item is complete on its own line: a pattern without an action ends with the
line, and everything else ends with a brace. What is cut off at the end of the
text is no item at all, and the text is refused.
-/

namespace Awk.Source

open Awk.Source.Parser (token require optional many)

variable {t cs : List Char} {d d' : Nat}

/-! ## Where no item starts -/

theorem actionItem_never {nested : Parser Statement}
    (other : cs.head? ≠ some '\x7b') : Never (actionItem nested) cs :=
  (symbol_never rfl other).bind.bind

theorem Spells.rule_never {word : String} {nested : Parser Statement}
    (h : Spells word cs) (key : word ∈ keywords) (command : word ≠ "getline") :
    Never (actionItem nested <|> patternItem (expression d (.expr true)) nested)
      cs :=
  (actionItem_never (h.head_ne key (by decide))).orElse
    (h.expr_never key command true).bind

theorem Spells.filled {word : String} (h : Spells word cs)
    (key : word ∈ keywords) : cs ≠ [] := by
  obtain ⟨c, r, rfl, -⟩ := h.head key
  exact List.cons_ne_nil c r

/-! ## Rests without an action -/

structure Untaken (cs : List Char) : Prop where
  brace : (behindGap cs).head? ≠ some '\x7b'
  unended : atRuleEnd (behindGap cs) = false

theorem untaken_of_head {c : Char} {r : List Char}
    (leads : behindGap cs = c :: r) (other : c ∉ ['\x7b', '\n', ';']) :
    Untaken cs := by
  simp only [List.mem_cons, List.not_mem_nil, or_false, not_or] at other
  constructor
  · simp [leads, other]
  · simp [leads, atRuleEnd, other]

theorem Astray.untaken (h : Astray cs) : Untaken cs := by
  obtain ⟨c, r, leads, other⟩ := h
  refine untaken_of_head leads fun inside => other ?_
  have follows : ∀ c ∈ ['\x7b', '\n', ';'], c ∈ followers := by decide
  exact follows c inside

theorem Untaken.never {β : Type} {nested : Parser Statement}
    {f : Option (List Statement) → Parser β} (h : Untaken cs) :
    Never (do
      blank
      let action ← (do
          let statements ← block nested
          return some statements) <|> (do
          ruleEnd
          return none)
      f action) cs := by
  have missed : Misses ruleEnd (behindGap cs) :=
    fun offset => by simp [ruleEnd, Parser.require, h.unended]
  exact .gap (Never.bind ((symbol_never rfl h.brace).bind.bind.orElse
    missed.never.bind))

theorem idle_ruleEnd : Idle .line ruleEnd := by
  rintro cs (torn | ⟨line, -⟩)
  · have missed : Misses ruleEnd cs := by
      obtain rfl | rfl := torn <;> exact fun _ => rfl
    exact missed.never
  · exact (line rfl).elim

/-! ## Items -/

section Items

variable (newline : OnNewLine t) (le : d ≤ d')

include newline

theorem params_joins {F : Prop} (cs : List Char) :
    Joins t (List.Forall₂ Word.Alike) (Unclosed true) F (commaList name)
      (commaList name) cs :=
  commaList_joins (D := fun _ => False) newline .name (idle_name _)
    (joins_name newline) (fun _ => joins_name newline)
    nofun (fun _ torn => .inl (torn.blocked.dead true)) fun _ => .inr

include le

theorem functionItem_joins (cs : List Char) :
    Joins t Item.Alike (fun _ => False) (∃ word ∈ ["func", "function"],
      Spells word cs) (functionItem (statement d))
      (functionItem (statement d')) cs := by
  refine .words newline (by decide) fun _ _ rest left _ => ?_
  have lost := left.spells
  have idle : Idle .line (token scanName) := idle_token rfl (fun _ => rfl) _
  have closing (g : Gap) : Idle g (symbol ")") := idle_symbol (by decide) g
  refine .behind newline idle.bind (fun _ _ => lost) ?_
  refine .token proper_scanName (scanName_newline newline _)
    fun word word' rest _ same => ?_
  refine .behind newline (idle_symbol (by decide) _).bind (fun _ _ => lost)
    (.symbol newline (by decide) fun rest _ => ?_)
  refine .behind newline ((idle_name _).bind.optional ((closing _).bind.gap _))
    (fun _ _ => lost) ?_
  refine (params_joins newline _).optionally (fun _ _ => .inr fun _ => ?_)
    (fun _ => False.elim) (fun _ _ unclosed =>
      unclosed.never .lines (by decide)) (fun _ => lost)
    fun params params' mid alike => ?_
  · exact (closing .lines).bind.gap .lines _ (.inr ⟨by decide, rfl⟩)
  · refine .behind newline (closing _).bind (fun _ _ => lost)
      (.symbol newline (by decide) fun rest _ => ?_)
    refine .behind newline (idle_symbol (by decide) _).bind.bind
      (fun _ _ => lost) ?_
    refine ((block_joins newline (statement_joins newline le) _).weaken fun _ =>
      lost).map fun body body' alike' => .function same ?_ alike'
    cases alike with
    | none => exact .nil
    | some alike => exact alike

theorem specialItem_joins {word : String} (proper : areWords [word] = true)
    (head : Head) (cs : List Char) :
    Joins t Item.Alike (fun _ => False) (Spells word cs)
      (specialItem word head (statement d))
      (specialItem word head (statement d')) cs := by
  refine .words newline proper fun _ _ rest left _ => ?_
  have spells : Spells word cs := Leaves.keyword left
  refine .behind newline (idle_symbol (by decide) _).bind.bind
    (fun _ _ => spells) ?_
  exact ((block_joins newline (statement_joins newline le) _).weaken fun _ =>
    spells).map fun _ _ alike => .rule rfl (.some alike)

theorem actionItem_joins (cs : List Char) :
    Joins t Item.Alike (fun _ => False) (cs.head? = some '\x7b')
      (actionItem (statement d)) (actionItem (statement d')) cs :=
  (block_joins newline (statement_joins newline le) cs).map fun _ _ alike =>
    .rule rfl (.some alike)

theorem range_joins {F : Prop} (cs : List Char) :
    Joins t (Option.Rel Term.Alike) Untaken F
      (optional do blank; symbol ","; newlines; expression d (.expr true))
      (optional do blank; symbol ","; newlines; expression d' (.expr true))
        cs := by
  refine Joins.optional (D := Dead true) (G := Untaken cs) ?_
    (fun more _ => .inl ?_) (fun _ => id) fun _ dead =>
      dead.astray.untaken
  · refine .behind newline (idle_symbol (by decide) _).bind (fun _ cut => ?_)
      (.symbol newline (by decide) fun rest front => ?_)
    · have torn : Torn (behindGap cs) := by simpa [Gap.Cut] using cut
      exact (torn.blocked.dead true).astray.untaken
    · have lost : Untaken cs := untaken_of_head front (by decide)
      refine .behind newline (idle_expression _ _) (fun _ _ => lost) ?_
      exact (expression_joins newline le (.expr true) _).weaken fun _ => lost
  · exact misses_newline newline more fun s =>
      (symbol_misses_at (by decide)).bind

theorem action_joins (cs : List Char) :
    Joins t (Option.Rel (List.Forall₂ Statement.Alike)) (fun _ => False) True
      ((do let statements ← block (statement d); return some statements) <|>
        (do ruleEnd; return none))
      ((do let statements ← block (statement d'); return some statements) <|>
        (do ruleEnd; return none)) cs := by
  refine Joins.orElse ((block_joins newline (statement_joins newline le) cs).map
    fun _ _ => .some) (fun _ brace => ?_) ?_
  · obtain ⟨r, rfl⟩ := List.head?_eq_some_iff.1 brace
    have missed : Misses ruleEnd ('\x7b' :: r) := fun _ => rfl
    exact missed.bind.never.dooms trivial
  · exact .require (atRuleEnd_newline newline cs) fun _ => joins_pure .none

theorem patternItem_joins (cs : List Char) :
    Joins t Item.Alike (fun _ => False) (Opens cs)
      (patternItem (expression d (.expr true)) (statement d))
      (patternItem (expression d' (.expr true)) (statement d')) cs := by
  by_cases opens : Opens cs
  · refine Joins.bind (D := Dead true)
      (expression_joins newline le (.expr true) cs)
      (fun start start' mid _ alike => ?_) fun _ start mid dead => ?_
    · refine Joins.bind (range_joins newline le mid)
        (fun stop stop' mid _ alike' => ?_) fun _ stop mid untaken => ?_
      · refine .behind newline ((idle_symbol (by decide) _).bind.bind.orElse
          idle_ruleEnd.bind).bind (fun _ _ => opens) ?_
        refine ((action_joins newline le _).weaken fun _ => opens).map
          fun action action' alike'' => .rule ?_ alike''
        cases alike' with
        | none => exact .pattern alike
        | some alike' => exact .range alike alike'
      · exact untaken.never.dooms opens
    · have untaken := dead.astray.untaken
      have unranged :
          Never (do blank; symbol ","; newlines; expression d (.expr true))
            mid := dead.astray.symbol .line (by decide)
      exact (Dooms.optional (unranged.dooms untaken) fun empty => empty ▸
        untaken).bind fun _ _ untaken => untaken.never.dooms opens
  · exact Joins.bind (D := fun _ => False) (R := fun _ _ => False)
      (expression_joins_closed newline opens le (.expr true))
      (fun _ _ _ _ => False.elim) fun _ _ _ => False.elim

theorem item_joins (cs : List Char) :
    Joins t Item.Alike (fun _ => False) (cs ≠ [])
      (item (expression d (.expr true)) (statement d))
      (item (expression d' (.expr true)) (statement d')) cs := by
  refine (functionItem_joins newline le cs).orElse
    (fun _ ⟨word, member, spells⟩ => ?_) ?_
  · have facts : ∀ word ∈ ["func", "function"], word ∈ keywords ∧
        word ≠ "getline" ∧ word ∉ ["BEGIN"] ∧ word ∉ ["END"] := by decide
    obtain ⟨key, command, begin, finish⟩ := facts word member
    exact (spells.skip begin (spells.skip finish
      (spells.rule_never key command))).dooms (spells.filled key)
  refine (specialItem_joins newline le (by decide) _ cs).orElse
    (fun _ spells => ?_) ?_
  · exact (spells.skip (by decide) (spells.rule_never (by decide) (by
      decide))).dooms (spells.filled (by decide))
  refine (specialItem_joins newline le (by decide) _ cs).orElse
    (fun _ spells => ?_) ?_
  · exact (spells.rule_never (by decide) (by decide)).dooms
      (spells.filled (by decide))
  refine (actionItem_joins newline le cs).orElse (fun _ brace => ?_) ?_
  · have closed : ¬Opens cs := fun opens => opens.head_ne (by decide) brace
    exact (expression_never closed _).bind.dooms (by rintro rfl; contradiction)
  · exact (patternItem_joins newline le cs).weaken
      (by rintro opens rfl; contradiction)

end Items

end Awk.Source
