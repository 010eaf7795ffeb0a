import Awk.Proofs.Joining.Words

/-!
# Simple statements with more text behind them

A simple statement that is cut off leaves a rest that does not end it.  At the
end of the text it may be ended, but nothing comes of it either, since the block
around it is not closed there.
-/

namespace Awk.Source

open Awk.Source.Parser (token require optional)

variable {t cs : List Char} {d d' : Nat}

theorem symbol_never {text : String} {c : Char} (single : text.toList = [c])
    (other : cs.head? ≠ some c) :
    Never (symbol text) cs := by
  intro offset _ next found
  obtain ⟨rest, front⟩ := symbol_found found
  refine other ?_
  change cs = text.toList ++ rest at front
  rw [front, single]
  rfl

/-! ## Where no simple statement starts -/

def simpleWords : List String :=
  ["print", "printf", "nextfile", "next", "break", "continue", "exit", "return",
    "delete"]

theorem word_misses {words : List String}
    (other : String.ofList (wordRun cs) ∉ words) :
    Misses (token (scanWord words)) cs :=
  token_misses (by simp [scanWord, other])

theorem simpleStatement_never (other : String.ofList (wordRun cs) ∉ simpleWords)
    (exprs : Never (expression d (.expr true)) cs) :
    Never (simpleStatement (expression d)) cs := by
  have unread {words : List String} (inside : ∀ w ∈ words, w ∈ simpleWords) :
      Never (token (scanWord words)) cs :=
    (word_misses fun member => other (inside _ member)).never
  have keyword {w : String} (inside : w ∈ simpleWords) : Never (keyword w) cs :=
    unread (by simpa using inside)
  refine (unread (by decide)).bind.orElse ?_
  refine (keyword (by decide)).bind.orElse
    ((keyword (by decide)).bind.orElse ?_)
  refine (keyword (by decide)).bind.orElse
    ((keyword (by decide)).bind.orElse ?_)
  refine (keyword (by decide)).bind.orElse
    ((keyword (by decide)).bind.orElse ?_)
  exact (keyword (by decide)).bind.orElse exprs.bind

theorem Spells.simpleStatement_never {word : String} (h : Spells word cs)
    (key : word ∈ keywords) (command : word ≠ "getline")
    (other : word ∉ simpleWords) :
    Never (simpleStatement (expression d)) cs := by
  refine Source.simpleStatement_never ?_ (h.expr_never key command true)
  rwa [h.run, String.ofList_toList]

/-! ## Rests that end no statement -/

def Unended (cs : List Char) : Prop :=
  cs = [] ∨ atStatementEnd (behindGap cs) = false

theorem Astray.unended (h : Astray cs) :
    atStatementEnd (behindGap cs) = false := by
  obtain ⟨c, r, leads, other⟩ := h
  rw [leads]
  simp only [followers, List.mem_cons, not_or] at other
  simp [atStatementEnd, other]

theorem Opens.unended (h : Opens cs) : atStatementEnd cs = false := by
  cases cs with
  | nil => contradiction
  | cons c r =>
      have closed : ∀ c ∈ ['\n', ';', '\x7d'], opensExpr c = false := by decide
      have other : c ∉ ['\n', ';', '\x7d'] :=
        fun ends => Bool.false_ne_true ((closed c ends).symm.trans h)
      simp only [List.mem_cons, not_or] at other
      simp [atStatementEnd, other]

theorem Torn.unended (h : Torn (behindGap cs)) :
    atStatementEnd (behindGap cs) = false := by
  obtain leads | leads := h <;> rw [leads] <;> rfl

theorem idle_statementEnd : Idle .line statementEnd := by
  rintro cs (torn | ⟨line, -⟩)
  · have missed : Misses statementEnd cs := by
      obtain rfl | rfl := torn <;> exact fun _ => rfl
    exact missed.never
  · exact (line rfl).elim

def Spent (d : Nat) (cs : List Char) : Prop :=
  cs = [] ∨ atStatementEnd (behindGap cs) = false ∧
    Never (redirect (expression d)) cs

theorem operator_misses_opens {α : Type} {ops : List (Operator α)}
    (closed : (ops.all fun op => op.text.toList.head?.any fun c =>
      !opensExpr c) = true) (opens : Opens cs) :
    Misses (operator ops) cs := by
  refine operator_misses_any (List.any_eq_false.2 fun op member there => ?_)
  obtain ⟨rest, rfl⟩ := op.scan_front there
  have start := List.all_eq_true.1 closed op member
  cases text : op.text.toList with
  | nil =>
      rw [text] at start
      contradiction
  | cons f front =>
      rw [text] at start opens
      simp [Opens] at start opens
      simp [opens] at start

/-! ## Statements -/

section Simple

variable (newline : OnNewLine t) (le : d ≤ d')

include newline le

theorem redirect_joins (cs : List Char) :
    Joins t Redirection.Alike Unended (atStatementEnd (behindGap cs) = false)
      (redirect (expression d)) (redirect (expression d'))
      cs := by
  have destination (rest : List Char) :
      Joins t Term.Alike (Dead true) True (concatenation (expression d))
        (concatenation (expression d')) rest := by
    by_cases deep : 3 ≤ d
    · exact concatenation_joins newline (fun _ => steadfast) (fun _ => deep) le
        (expression_joins newline le) rest
    · exact Sinks.joins (unary_sinks (by omega) rest).bind.bind.bind
  have ends : ∀ c ∈ ['>', '|'], ∀ r, atStatementEnd (c :: r) = false := by
    intro c member r
    simp only [List.mem_cons, List.not_mem_nil, or_false] at member
    obtain rfl | rfl := member <;> rfl
  refine .behind newline (idle_operator (by decide) _).bind
    (fun _ cut => Torn.unended (by simpa [Gap.Cut] using cut)) ?_
  refine .operator newline (by decide) fun op op' rest found same => ?_
  have lost : atStatementEnd (behindGap cs) = false := by
    obtain ⟨c, r, leads, member⟩ : ∃ c r, behindGap cs = c :: r ∧
        c ∈ ['>', '|'] := any_scan_leads found.any (by decide)
    rw [leads]
    exact ends c member r
  refine .behind newline (concatenation_idle _).bind (fun _ _ => lost) ?_
  exact ((destination _).imp (fun _ dead => .inr dead.astray.unended) fun _ =>
    lost).map fun value value' alike => .mk same alike

theorem argument_joins {F : Prop} (cs : List Char) :
    Joins t (Option.Rel Term.Alike) Unended F
      (optional do blank; expression d (.expr true))
      (optional do blank; expression d' (.expr true)) cs := by
  refine Joins.optional (D := Dead true)
    (G := atStatementEnd (behindGap cs) = false) ?_
    (fun _ _ => .inr (.inl rfl)) (fun _ => .inr) fun rest dead =>
      .inr dead.astray.unended
  refine .behind newline (idle_expression _ _)
    (fun _ cut => Torn.unended (by simpa [Gap.Cut] using cut)) ?_
  exact (expression_joins newline le (.expr true) _).weaken Opens.unended

theorem printed_joins {F : Prop} (cs : List Char) :
    Joins t (Option.Rel (List.Forall₂ Term.Alike)) (Spent d) F
      (optional do blank; commaList (expression d (.expr false)))
      (optional do blank; commaList (expression d' (.expr false))) cs := by
  refine Joins.optional (D := Unclosed false) (G := Torn (behindGap cs) ∨
    Opens (behindGap cs)) ?_ (fun _ _ => .inr (.inl rfl))
    (fun _ lost => .inr ?_) fun rest unclosed => .inr ?_
  · refine .behind newline (idle_expression _ _).bind
      (fun _ cut => .inl (by simpa [Gap.Cut] using cut)) ?_
    exact (exprs_joins newline (expression_joins newline le) false _).weaken
      .inr
  · obtain torn | opens := lost
    · exact ⟨torn.unended, (torn.blocked.dead false).redirect rfl d⟩
    · exact ⟨opens.unended,
        .gap (operator_misses_opens (by decide) opens).never.bind⟩
  · obtain dead | ⟨r, leads⟩ := unclosed
    · exact ⟨dead.astray.unended, dead.redirect rfl d⟩
    · refine ⟨leads ▸ rfl, .gap ?_⟩
      rw [Gap.behind_line, leads]
      exact (operator_misses_at (by decide)).never.bind

theorem printStatement_joins {F : Prop} (cs : List Char) :
    Joins t Statement.Alike Unended F (printStatement (expression d))
      (printStatement (expression d')) cs := by
  refine .words newline (by decide) fun w w' rest _ same => ?_
  refine (printed_joins newline le rest).bind (fun args args' mid _ alike => ?_)
    fun _ args mid spent => ?_
  · refine Joins.map (Joins.optional (E := Unended)
      (redirect_joins newline le mid) (fun _ _ => .inr (.inl rfl))
      (fun _ => .inr) fun _ => id) fun output output' alike' =>
        .print same ?_ alike'
    cases alike with
    | none => exact .nil
    | some alike => exact alike
  · obtain rfl | ⟨ends, never⟩ := spent
    · exact fun offset => .found (.inl rfl)
    · exact (Dooms.optional (never.dooms (.inr ends)) fun _ => .inl rfl).map

theorem valueStatement_joins {F : Prop} {word : String}
    (proper : areWords [word] = true) {make : Option Term → Statement}
    (alike : ∀ v v', Option.Rel Term.Alike v v' → (make v).Alike (make v'))
    (cs : List Char) :
    Joins t Statement.Alike Unended F
      (valueStatement word make (expression d (.expr true)))
      (valueStatement word make (expression d' (.expr true))) cs :=
  .words newline proper fun _ _ rest _ _ =>
    (argument_joins newline le rest).map alike

omit le in
theorem wordStatement_joins {F : Prop} {word : String}
    (proper : areWords [word] = true) (s : Statement) (cs : List Char) :
    Joins t Statement.Alike Unended F (wordStatement word s)
      (wordStatement word s) cs :=
  .words newline proper fun _ _ _ _ _ => joins_pure (.refl s)

theorem deleteStatement_joins (cs : List Char) :
    Joins t Statement.Alike Unended (Spells "delete" cs)
      (deleteStatement (expression d)) (deleteStatement (expression d'))
      cs := by
  refine .words newline (by decide) fun w w' rest left _ => ?_
  have spells : Spells "delete" cs := Leaves.keyword left
  refine .behind newline (idle_name _).bind (fun _ _ => spells)
    (.name newline fun w w' rest _ same => ?_)
  refine Joins.map (Joins.optional (E := Unended)
    (subscript_joins newline (expression_joins newline le) rest)
    (fun _ _ => .inr (.inl rfl)) (fun _ lost => .inr ?_) nofun)
    fun keys keys' alike => .delete same ?_
  · obtain torn | ⟨r, leads⟩ := lost
    · exact torn.unended
    · rw [leads]
      rfl
  · cases alike with
    | none => exact .nil
    | some alike => exact alike

theorem simpleStatement_joins (cs : List Char) :
    Joins t Statement.Alike Unended (Spells "delete" cs ∨
      Opens cs) (simpleStatement (expression d))
      (simpleStatement (expression d'))
      cs := by
  refine (printStatement_joins newline le cs).orElse (fun _ => False.elim) ?_
  refine (wordStatement_joins newline (by decide) _ cs).orElse
    (fun _ => False.elim) ?_
  refine (wordStatement_joins newline (by decide) _ cs).orElse
    (fun _ => False.elim) ?_
  refine (wordStatement_joins newline (by decide) _ cs).orElse
    (fun _ => False.elim) ?_
  refine (wordStatement_joins newline (by decide) _ cs).orElse
    (fun _ => False.elim) ?_
  refine (valueStatement_joins newline le (by decide)
    (fun _ _ => .exit) cs).orElse (fun _ => False.elim) ?_
  refine (valueStatement_joins newline le (by decide)
    (fun _ _ => .returnValue) cs).orElse (fun _ => False.elim) ?_
  refine (deleteStatement_joins newline le cs).orElse (fun _ spells => ?_) ?_
  · exact (spells.expr_never (by decide) (by decide) true).bind.dooms
      (.inl spells)
  · exact ((expression_joins newline le (.expr true) cs).imp
      (fun _ dead => .inr dead.astray.unended) .inr).map fun _ _ => .expr

end Simple

end Awk.Source
