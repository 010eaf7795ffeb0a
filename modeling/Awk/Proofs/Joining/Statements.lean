import Awk.Proofs.Joining.Simple

/-!
# Statements with more text behind them

A statement is followed by others or by the brace that closes its block.  What
is cut off at the end of the text is not: an `if` may go on with `else`, but
then neither a statement nor a brace is there.
-/

namespace Awk.Source

open Awk.Source.Parser (token require optional many)

variable {t cs : List Char} {d d' : Nat}

/-! ## Where no statement starts -/

def compoundWords : List String := ["if", "while", "do", "for"]

def openingWords : List String := compoundWords ++ simpleWords

theorem unbraced_never {nested : Parser Statement}
    (other : String.ofList (wordRun cs) ∉ openingWords)
    (exprs : Never (expression d (.expr true)) cs) :
    Never (ifStatement (expression d (.expr true)) nested <|>
      whileStatement (expression d (.expr true)) nested
      <|> doStatement (expression d (.expr true)) nested <|>
        forInStatement nested
      <|> forStatement (expression d (.expr true)) nested <|>
        endedStatement (expression d)) cs := by
  have keyword {w : String} (inside : w ∈ openingWords) :
      Never (keyword w) cs := by
    refine (word_misses fun member => other ?_).never
    rw [List.mem_singleton] at member
    exact member ▸ inside
  refine (keyword (by decide)).bind.orElse
    ((keyword (by decide)).bind.orElse ?_)
  refine (keyword (by decide)).bind.orElse
    ((keyword (by decide)).bind.orElse ((keyword (by decide)).bind.orElse ?_))
  exact (simpleStatement_never (fun inside =>
    other (List.mem_append_right _ inside)) exprs).bind

theorem statement_never (brace : cs.head? ≠ some '\x7b')
    (other : String.ofList (wordRun cs) ∉ openingWords)
    (exprs : ∀ e, Never (expression e (.expr true)) cs) :
    Never (statement d) cs := by
  cases d with
  | zero => exact Sinks.never fun _ => rfl
  | succ d =>
      exact ((symbol_never rfl brace).bind.bind).orElse
        (unbraced_never other (exprs d))

theorem wordless_head {c : Char} {words : List String}
    (leads : cs.head? = some c) (other : Text.isAsciiWord c = false)
    (words_filled : "" ∉ words) : String.ofList (wordRun cs) ∉ words := by
  obtain ⟨r, rfl⟩ := List.head?_eq_some_iff.1 leads
  rwa [wordRun, List.takeWhile_cons, other]

theorem idle_statement (g : Gap) : Idle g (statement d) := by
  intro cs cut
  refine statement_never ?_ ?_ fun e => expression_never cut.closed _
  · obtain rfl | ⟨r, rfl⟩ := cut.eq <;> simp
  · have wordless : wordRun cs = [] := by
      obtain rfl | ⟨r, rfl⟩ := cut.eq <;> rfl
    rw [wordless]
    decide

theorem Spells.statement_never {word : String} (h : Spells word cs)
    (key : word ∈ keywords) (command : word ≠ "getline")
    (other : word ∉ openingWords) : Never (statement d) cs := by
  refine Source.statement_never (h.head_ne key (by decide)) ?_ fun e =>
    h.expr_never key command true
  rwa [h.run, String.ofList_toList]

theorem Spells.compound {word : String} (h : Spells word cs)
    (inside : word ∈ compoundWords) :
    cs.head? ≠ some '\x7d' ∧ Never (endedStatement (expression d)) cs := by
  have facts : ∀ word ∈ compoundWords, word ∈ keywords ∧ word ≠ "getline" ∧
      word ∉ simpleWords := by decide
  obtain ⟨key, command, other⟩ := facts word inside
  exact ⟨h.head_ne key (by decide),
    (h.simpleStatement_never key command other).bind⟩

/-! ## Rests that nothing stands behind -/

def Adrift (cs : List Char) : Prop :=
  Gap.terms.Cut (Gap.terms.behind cs) ∨ ∃ n,
    scanWord ["else"] (Gap.terms.behind cs) = some n ∧
    ∀ e, Never (body (statement e)) ((Gap.terms.behind cs).drop n)

theorem adrift_nil : Adrift [] := .inl (.inr ⟨by decide, rfl⟩)

structure Vacant (d : Nat) (cs : List Char) : Prop where
  unclosed : cs.head? ≠ some '\x7d'
  statement : Never (statement d) cs

theorem Gap.Cut.vacant {g : Gap} (cut : g.Cut cs) : Vacant d cs where
  unclosed := by obtain rfl | ⟨r, rfl⟩ := cut.eq <;> simp
  statement := idle_statement g cs cut

namespace Adrift

theorem vacant (h : Adrift cs) : Vacant d (Gap.terms.behind cs) := by
  obtain cut | ⟨n, scanned, -⟩ := h
  · exact cut.vacant
  · obtain ⟨word, member, spells⟩ := spells_of_scan scanned
    rw [List.mem_singleton] at member
    subst member
    exact ⟨spells.head_ne (by decide) (by decide),
      spells.statement_never (by decide) (by decide) (by decide)⟩

theorem elseBranch_never (h : Adrift cs) :
    Never (elseBranch (statement d)) cs := by
  refine .gap (never_bind fun offset w next found => ?_)
  obtain ⟨n, scanned, rest⟩ := Leaves.token ⟨offset, next, found, rfl⟩
  obtain cut | ⟨m, scanned', never⟩ := h
  · have missed : Never (keyword "else") (Gap.terms.behind cs) :=
      idle_words (by decide) (by decide) .terms _ cut
    exact (missed offset w next found).elim
  · obtain rfl : m = n := Option.some.inj (scanned'.symm.trans scanned)
    rw [rest]
    exact never d

theorem while_never {α : Type} {p : Parser α} (h : Adrift cs) :
    Never (do terms; let _ ← keyword "while"; p) cs := by
  refine .gap (Never.bind ?_)
  obtain cut | ⟨n, scanned, -⟩ := h
  · exact idle_words (by decide) (by decide) .terms _ cut
  · obtain ⟨word, member, spells⟩ := spells_of_scan scanned
    rw [List.mem_singleton] at member
    subst member
    exact (spells.misses (by decide)).never

end Adrift

/-! ## Loops over keys -/

theorem Gap.behind_eq_line {b : Char} {r : List Char}
    (leads : behindGap cs = b :: r) (newline : b ≠ '\n') (semicolon : b ≠ ';')
    (g : Gap) : g.behind cs = behindGap cs := by
  rw [Gap.behind, g.length_eq_line newline semicolon false cs r leads,
    behindGap]

def Unparted (cs : List Char) : Prop := (behindGap cs).head? ≠ some ';'

structure NoLoop (d : Nat) (cs : List Char) : Prop where
  without : Unparted (Gap.lines.behind cs)
  behind : Ends (expression d (.expr true)) (Gap.lines.behind cs) Unparted

theorem forStatement_never {n : Nat} {nested : Parser Statement}
    (scanned : scanWord ["for"] cs = some n)
    (h : ∀ v, behindGap (cs.drop n) = '(' :: v → NoLoop d v) :
    Never (forStatement (expression d (.expr true)) nested) cs := by
  refine never_bind fun offset w next found =>
    .gap (never_bind fun offset' _ next' found' => .gap ?_)
  obtain ⟨m, scanned', rest⟩ := Leaves.token ⟨offset, next, found, rfl⟩
  obtain rfl : n = m := Option.some.inj (scanned.symm.trans scanned')
  have front : behindGap next.rest = '(' :: next'.rest :=
    Leaves.symbol ⟨offset', next', found', rfl⟩
  rw [rest] at front
  obtain ⟨unparted, ends⟩ := h next'.rest front
  have closed {α : Type} {p : Parser α} {rest : List Char}
      (unparted : Unparted rest) : Never (do blank; symbol ";"; p) rest :=
    .gap (symbol_never rfl unparted).bind
  refine never_bind fun offset init next found => ?_
  rw [result_optional] at found
  split at found
  · cases found
    exact closed unparted
  · rcases Found.elim_eq_found found with ⟨a, mid, first, same⟩ | ⟨-, last⟩
    · cases same
      exact closed (ends offset a next first)
    · cases last
      exact closed unparted

theorem Torn.unparted (torn : Torn (behindGap cs)) : Unparted cs := by
  obtain leads | leads := torn <;> simp [Unparted, leads]

theorem Torn.noLoop (torn : Torn (behindGap cs)) : NoLoop d cs := by
  have cut : Gap.line.Cut (behindGap cs) := .inl torn
  have same : Gap.lines.behind cs = behindGap cs := by
    obtain leads | leads :=
      torn <;> exact Gap.behind_eq_line leads (by decide) (by decide) _
  constructor
  · rw [same]
    refine Torn.unparted ?_
    rwa [← Gap.behind_line (behindGap cs), Gap.behind_cut cut]
  · rw [same]
    exact (expression_never cut.closed _).ends

theorem noLoop_name {c : Char} {m : Nat} {r : List Char} {Q : List Char → Prop}
    (scanned : scanFreeName (behindGap cs) = some m)
    (leads : behindGap ((behindGap cs).drop m) = c :: r)
    (stop : c ∈ ['\\', 'i']) (refuses : ∀ k < 10, k ≠ 6 →
      Refuses true k ((behindGap cs).drop m))
    (member : ∀ left, Ends (memberStep left) ((behindGap cs).drop m) Q)
    (closed : ∀ rest, Q rest → Unparted rest ∧ ∀ k < 10, Refuses true k rest) :
    NoLoop d cs := by
  obtain ⟨b, s, front, start⟩ := start_of_free scanned
  have same : Gap.lines.behind cs = behindGap cs :=
    Gap.behind_eq_line front (ne_of_nameStart start (by decide))
      (ne_of_nameStart start (by decide)) _
  constructor
  · have solid : isSolid b = true :=
      isSolid_of_opensExpr (by simp [opensExpr, opensPrimary, start])
    rw [same, Unparted, front, behindGap_solid solid]
    simpa using ne_of_nameStart start (by decide)
  · rw [same]
    refine (expr_ends_name scanned leads stop refuses member fun rest known =>
      (closed rest known).2).imp fun rest known => ?_
    obtain rfl | known := known
    · have other : ∀ c ∈ ['\\', 'i'], c ≠ ';' := by decide
      rw [Unparted, leads]
      simpa using other c stop
    · exact (closed rest known).1

theorem LedBy.unparted (h : LedBy ')' cs) : Unparted cs := by
  obtain ⟨r, leads⟩ := h
  simp [Unparted, leads]

theorem LedBy.refuses {greater : Bool} (h : LedBy ')' cs) (k : Nat)
    (below : k < 10) : Refuses greater k cs := by
  obtain ⟨r, leads⟩ := h
  refine refuses_of_goesOn below ?_
  rw [leads]
  by_contra there
  rw [Bool.not_eq_false] at there
  exact Bool.false_ne_true
    ((mayGoOn_follower ')' (by decide) k below).symm.trans (goesOn_head there))

theorem noLoop_member {m n : Nat} {Q : List Char → Prop}
    (scanned : scanFreeName (behindGap cs) = some m)
    (inside : scanWord ["in"] (behindGap ((behindGap cs).drop m)) = some n)
    (member : ∀ left, Ends (memberStep left) ((behindGap cs).drop m) Q)
    (closed : ∀ rest, Q rest → Unparted rest ∧ ∀ k < 10, Refuses true k rest) :
    NoLoop d cs := by
  have there : goesOn 6 (behindGap ((behindGap cs).drop m)) = true :=
    Option.isSome_iff_exists.2 ⟨n, inside⟩
  obtain ⟨word, single, ⟨rest, front⟩, -⟩ := scanWord_isSome there
  rw [List.mem_singleton] at single
  subst single
  refine noLoop_name scanned front (by decide)
    (fun k below other => refuses_of_goesOn below ?_) member closed
  exact goesOn_unique below (by decide) there other

theorem noLoop_torn {m : Nat} (scanned : scanFreeName (behindGap cs) = some m)
    (torn : Torn (behindGap ((behindGap cs).drop m))) :
    NoLoop d cs := by
  have refuses : ∀ k < 10, Refuses true k ((behindGap cs).drop m) :=
    (torn.blocked.dead true).refuses
  obtain ⟨r, leads⟩ : ∃ r, behindGap ((behindGap cs).drop m) = '\\' :: r := by
    obtain leads | leads := torn <;> exact ⟨_, leads⟩
  refine noLoop_name (Q := fun _ => False) scanned leads (by decide)
    (fun k below _ => refuses k below) (fun left => ?_) nofun
  exact (refuses 6 (by decide) 0 ⟨[], 0⟩ left).ends

theorem noLoop_array {m n k : Nat}
    (scanned : scanFreeName (behindGap cs) = some m)
    (inside : scanWord ["in"] (behindGap ((behindGap cs).drop m)) = some n)
    (array : scanFreeName
      (behindGap ((behindGap ((behindGap cs).drop m)).drop n)) = some k)
    (unparted : Unparted
      ((behindGap ((behindGap ((behindGap cs).drop m)).drop n)).drop k))
    (refuses : ∀ j < 10,
      Refuses true j
        ((behindGap ((behindGap ((behindGap cs).drop m)).drop n)).drop k)) :
    NoLoop d cs := by
  refine noLoop_member scanned inside (fun left => ?_)
    (Q := (· = (behindGap ((behindGap ((behindGap cs).drop m)).drop n)).drop k))
    ?_
  · refine Ends.gap ((ends_token inside).bind fun _ rest same => Ends.gap ?_)
    rw [same]
    exact (ends_token array).bind fun _ _ same => ends_pure same
  · rintro rest rfl
    exact ⟨unparted, refuses⟩

/-! ## Nested statements -/

def SteadyBody : Prop :=
  ∀ {d : Nat} {cs : List Char} {offset : Nat},
    (body (statement d) ⟨cs, offset⟩).result = .missed →
    ∀ e, Never (body (statement e)) cs

section Nested

variable (newline : OnNewLine t) (le : d ≤ d') (steady : t ≠ [] → SteadyBody)
    (nested : ∀ cs, Joins t Statement.Alike Adrift (cs.head? ≠
      some '\x7d') (statement d) (statement d') cs)

include newline

/-! ### Blocks and bodies -/

section Blocks

include nested

theorem listed_joins (cs : List Char) :
    Joins t Statement.Alike (Vacant d) (cs.head? ≠ some '\x7d')
      (do let s ← statement d; terms; return s)
      (do let s ← statement d'; terms; return s) cs := by
  refine (nested cs).bind (fun s s' mid _ alike => ?_)
    fun _ s mid adrift offset => .found adrift.vacant
  exact .gap newline .terms (fun _ cut offset => .found cut.vacant) fun _ =>
    joins_pure alike

theorem block_joins (cs : List Char) :
    Joins t (List.Forall₂ Statement.Alike) (fun _ => False)
      (cs.head? = some '\x7b') (block (statement d)) (block (statement d'))
      cs := by
  refine .symbol newline (by decide) fun rest front => ?_
  have lost : cs.head? = some '\x7b' := by
    rw [front]
    rfl
  have unclosed (found : List Statement) (rest : List Char)
      (other : rest.head? ≠ some '\x7d') :
      Dooms (fun _ => False) (cs.head? = some '\x7b')
        (do symbol "\x7d"; return found) rest :=
    (symbol_never rfl other).bind.dooms lost
  refine .gap newline .terms (fun _ cut => ?_) fun _ => ?_
  · have vacant : Vacant d (Gap.terms.behind rest) := cut.vacant
    exact (dooms_many vacant.unclosed (.inr vacant.statement.bind)).bind
      unclosed
  · have takes : Takes 1 (do let s ← statement d; terms; return s) :=
      (Takes.statement d).before fun _ => (Takes.gap .terms).map _
    refine Joins.bind (D := fun rest => rest.head? ≠ some '\x7d')
      (Joins.many takes (listed_joins newline nested) (fun _ => .inr (by simp))
        fun mid vacant => ⟨vacant.unclosed, .inr vacant.statement.bind⟩)
      (fun _ _ mid _ alike => ?_) fun _ => unclosed
    exact .symbol newline (by decide) fun _ _ => joins_pure alike

theorem body_joins (cs : List Char) :
    Joins t Statement.Alike Adrift True (body (statement d))
      (body (statement d')) cs := by
  refine .behind newline ((idle_symbol (by decide) _).bind.orElse
    (idle_statement _)) (fun _ _ => trivial) ?_
  refine Joins.orElse (G := False) ?_ (fun _ => False.elim)
    ((nested _).weaken fun _ => trivial)
  exact .symbol newline (by decide) fun _ _ => joins_pure (.refl _)

end Blocks

/-! ### Conditions and loops -/

include le in
theorem condition_joins (cs : List Char) :
    Joins t Term.Alike (fun _ => False) True
      (condition (expression d (.expr true)))
      (condition (expression d' (.expr true))) cs := by
  refine .symbol newline (by decide) fun rest _ =>
    .behind newline (idle_expression _ _).bind (fun _ _ => trivial) ?_
  refine ((expression_joins newline le (.expr true) _).weaken fun _ =>
    trivial).bind (fun test test' mid _ alike => ?_) fun _ test mid dead => ?_
  · refine .behind newline (idle_symbol (by decide) _).bind
      (fun _ _ => trivial) ?_
    exact .symbol newline (by decide) fun _ _ => joins_pure alike
  · exact (dead.astray.symbol .lines (by decide)).dooms trivial

include steady nested in
theorem elseBranch_joins (cs : List Char) :
    Joins t Statement.Alike Adrift (Adrift cs) (elseBranch (statement d))
      (elseBranch (statement d')) cs := by
  refine .behind newline (idle_words (by decide) (by decide) _).bind
    (fun _ => .inl) ?_
  refine .words newline (by decide) fun _ _ rest left _ => ?_
  obtain ⟨n, scanned, rfl⟩ := left.token
  exact (body_joins newline nested _).missing fun more _ offset missed =>
    .inr ⟨n, scanned, steady more missed⟩

include le steady nested in
theorem ifStatement_joins (cs : List Char) :
    Joins t Statement.Alike Adrift (Spells "if" cs)
      (ifStatement (expression d (.expr true)) (statement d))
      (ifStatement (expression d' (.expr true)) (statement d')) cs := by
  refine .words newline (by decide) fun _ _ rest left _ => ?_
  have spells : Spells "if" cs := Leaves.keyword left
  refine .behind newline (idle_symbol (by decide) _).bind.bind
    (fun _ _ => spells) ?_
  refine ((condition_joins newline le _).weaken fun _ => spells).bind
    (fun test test' mid _ alike => ?_) fun _ _ _ => False.elim
  refine ((body_joins newline nested mid).weaken fun _ => spells).bind
    (fun yes yes' mid _ alike' => ?_) fun _ yes mid adrift => ?_
  · exact Joins.map (Joins.optional (elseBranch_joins newline steady nested mid)
      (fun _ _ => .inr adrift_nil) (fun _ => id) fun _ => id)
      fun no no' alike'' => .ifElse alike alike' alike''
  · exact (Dooms.optional (adrift.elseBranch_never.dooms adrift) fun _ =>
      adrift_nil).map

include le nested in
theorem whileStatement_joins (cs : List Char) :
    Joins t Statement.Alike Adrift (Spells "while" cs)
      (whileStatement (expression d (.expr true)) (statement d))
      (whileStatement (expression d' (.expr true)) (statement d')) cs := by
  refine .words newline (by decide) fun _ _ rest left _ => ?_
  have spells : Spells "while" cs := Leaves.keyword left
  refine .behind newline (idle_symbol (by decide) _).bind.bind
    (fun _ _ => spells) ?_
  refine ((condition_joins newline le _).weaken fun _ => spells).bind
    (fun test test' mid _ alike => ?_) fun _ _ _ => False.elim
  exact ((body_joins newline nested mid).weaken fun _ => spells).map fun _ _ =>
    .whileLoop alike

include le nested in
theorem doStatement_joins (cs : List Char) :
    Joins t Statement.Alike Adrift (Spells "do" cs)
      (doStatement (expression d (.expr true)) (statement d))
      (doStatement (expression d' (.expr true)) (statement d')) cs := by
  refine .words newline (by decide) fun _ _ rest left _ => ?_
  have spells : Spells "do" cs := Leaves.keyword left
  refine ((body_joins newline nested rest).weaken fun _ => spells).bind
    (fun looped looped' mid _ alike => ?_) fun _ looped mid adrift =>
      adrift.while_never.dooms spells
  refine .behind newline (idle_words (by decide) (by decide) _).bind
    (fun _ _ => spells) ?_
  refine .words newline (by decide) fun _ _ rest _ _ => ?_
  refine .behind newline (idle_symbol (by decide) _).bind.bind
    (fun _ _ => spells) ?_
  refine ((condition_joins newline le _).weaken fun _ => spells).bind
    (fun test test' mid _ alike' => ?_) fun _ _ _ => False.elim
  refine .behind newline idle_statementEnd.bind (fun _ _ => spells) ?_
  exact .require (atStatementEnd_newline newline _) fun _ =>
    joins_pure (.doLoop alike alike')

include le in
theorem part_joins {F : Prop} {β β' : Type} {S : β → β' → Prop}
    {E : List Char → Prop} {g : Gap} {text : String}
    {f : Option Term → Parser β} {f' : Option Term → Parser β'} (spells : F)
    (cs : List Char) (inline : (Operator.mk text [] ()).isInline = true)
    (stop : startOtherwise [(⟨text, [], ()⟩ : Operator Unit)] '\\' = true)
    (follows : text.toList.head?.any followers.contains = true)
    (h : ∀ part part' mid, Option.Rel Term.Alike part part' →
      Joins t S E F (f part) (f' part') mid) :
    Joins t S E F
      (do
        newlines
        let part ← optional (expression d (.expr true))
        gap g
        symbol text
        f part)
      (do
        newlines
        let part ← optional (expression d' (.expr true))
        gap g
        symbol text
        f' part) cs := by
  refine .behind newline ((idle_expression _ _).optional
    ((idle_symbol stop _).bind.gap g)) (fun _ _ => spells) ?_
  refine (expression_joins newline le (.expr true) _).optionally
    (fun _ _ => .inr fun part => ?_) (fun _ opens part =>
      opens.astray.symbol g follows) (fun rest part dead =>
        dead.astray.symbol g follows) (fun _ => spells)
    fun part part' mid alike => ?_
  · have nothing : Never (symbol text) [] :=
      (operator_misses_nil stop).bind.never
    cases g <;> exact .gap nothing.bind
  · exact .behind newline (idle_symbol stop _).bind (fun _ _ => spells)
      (.symbol newline inline fun rest _ => h part part' rest alike)

include le nested in
theorem forStatement_joins (cs : List Char) :
    Joins t Statement.Alike Adrift (Spells "for" cs)
      (forStatement (expression d (.expr true)) (statement d))
      (forStatement (expression d' (.expr true)) (statement d')) cs := by
  refine .words newline (by decide) fun _ _ rest left _ => ?_
  have spells : Spells "for" cs := Leaves.keyword left
  refine .behind newline (idle_symbol (by decide) _).bind (fun _ _ => spells)
    (.symbol newline (by decide) fun rest _ => ?_)
  refine part_joins newline le spells rest (by decide) (by decide) (by decide)
    fun init init' mid alike => ?_
  refine part_joins newline le spells mid (by decide) (by decide) (by decide)
    fun test test' mid alike' => ?_
  refine part_joins newline le spells mid (by decide) (by decide) (by decide)
    fun update update' mid alike'' => ?_
  exact ((body_joins newline nested mid).weaken fun _ => spells).map fun _ _ =>
    .forLoop alike alike' alike''

include nested in
theorem forInStatement_joins (cs : List Char) :
    Joins t Statement.Alike Adrift (Spells "for" cs ∧
      Never (forStatement (expression d (.expr true)) (statement d)) cs)
      (forInStatement (statement d)) (forInStatement (statement d')) cs := by
  refine .words newline (by decide) fun _ _ rest left _ => ?_
  have spells : Spells "for" cs := Leaves.keyword left
  obtain ⟨n, scanned, rfl⟩ := left.token
  refine .behind newline (idle_symbol (by decide) _).bind (fun _ cut => ⟨spells,
    forStatement_never scanned fun v leads => ?_⟩) ?_
  · have torn : Torn (behindGap (cs.drop n)) := by simpa [Gap.Cut] using cut
    obtain front | front := torn <;> cases leads.symm.trans front
  refine .symbol newline (by decide) fun v front => ?_
  have lost (h : NoLoop d v) : Spells "for" cs ∧
      Never (forStatement (expression d (.expr true)) (statement d)) cs := by
    refine ⟨spells, forStatement_never scanned fun v' leads => ?_⟩
    obtain ⟨-, rfl⟩ := List.cons.inj (front.symm.trans leads)
    exact h
  refine .behind newline (idle_name _).bind
    (fun _ cut => lost (Torn.noLoop (by simpa [Gap.Cut] using cut))) ?_
  refine .name newline fun key key' rest left same => ?_
  obtain ⟨m, scanned', rfl⟩ := left.token
  refine .behind newline (idle_words (by decide) (by decide) _).bind
    (fun _ cut => lost ?_) ?_
  · exact noLoop_torn scanned' (by simpa [Gap.Cut] using cut)
  refine .words newline (by decide) fun _ _ rest left _ => ?_
  obtain ⟨k, inside, rfl⟩ := left.token
  refine .behind newline (idle_name _).bind
    (fun _ cut => lost (noLoop_member scanned' inside (fun left => ?_) fun _ =>
      False.elim)) ?_
  · refine Ends.gap ((ends_token inside).bind fun _ rest same =>
      Never.ends (.gap ?_))
    rw [same]
    exact (idle_name _ _ cut).bind
  refine .name newline fun array array' rest left same' => ?_
  obtain ⟨j, scanned'', rfl⟩ := left.token
  refine .behind newline (idle_symbol (by decide) _).bind
    (fun _ cut => lost ?_) ?_
  · have torn :
        Torn
          (behindGap
            ((behindGap ((behindGap ((behindGap v).drop m)).drop k)).drop
              j)) := by simpa [Gap.Cut] using cut
    exact noLoop_array scanned' inside scanned'' torn.unparted fun k below =>
      (torn.blocked.dead true).refuses k below
  refine .symbol newline (by decide) fun rest closing => ?_
  refine Joins.map ((body_joins newline nested rest).weaken fun _ => lost ?_)
    fun _ _ => .forIn same same'
  have closing : LedBy ')' _ := ⟨rest, closing⟩
  exact noLoop_array scanned' inside scanned'' closing.unparted closing.refuses

/-! ### All statements -/

include le in
theorem endedStatement_joins (cs : List Char) :
    Joins t Statement.Alike Adrift (cs.head? ≠ some '\x7d')
      (endedStatement (expression d)) (endedStatement (expression d')) cs := by
  have simple := simpleStatement_joins newline le cs
  by_cases busy : cs.head? ≠ some '\x7d'
  · refine Joins.bind (D := Unended) (simple.weaken fun _ => busy)
      (fun s s' mid left alike => ?_) fun _ s mid unended => ?_
    · refine .behind newline idle_statementEnd.bind (fun _ _ => busy) ?_
      exact .require (atStatementEnd_newline newline _) fun _ =>
        joins_pure alike
    · obtain rfl | unended := unended
      · exact fun offset => .found adrift_nil
      · have missed : Misses statementEnd (behindGap mid) :=
          fun offset => by simp [statementEnd, Parser.require, unended]
        exact Never.dooms (.gap missed.never.bind) busy
  · rw [ne_eq, not_not] at busy
    have closed : ¬Opens cs := fun opens => opens.head_ne (by decide) busy
    refine simple.bind_never (simpleStatement_never
      (wordless_head busy (by decide) (by decide)) (expression_never closed _))
      ?_
    rintro (spells | opens)
    · exact spells.head_ne (by decide) (by decide) busy
    · exact closed opens

include le steady nested in
theorem statementBody_joins (cs : List Char) :
    Joins t Statement.Alike Adrift (cs.head? ≠ some '\x7d')
      (statementBody (expression d) (statement d))
      (statementBody (expression d') (statement d')) cs := by
  refine Joins.orElse (((block_joins newline nested cs).imp nofun id).map
    fun _ _ => .block) (fun _ brace => ?_) ?_
  · have closed : ¬Opens cs := fun opens => opens.head_ne (by decide) brace
    exact (unbraced_never (wordless_head brace (by decide) (by decide))
      (expression_never closed _)).dooms (by simp [brace])
  refine (ifStatement_joins newline le steady nested cs).orElse
    (fun _ spells => ?_) ?_
  · obtain ⟨head, ended⟩ := spells.compound (by decide)
    refine (spells.skip (by decide) (spells.skip (by decide) ?_)).dooms head
    exact spells.skip (by decide) (spells.skip (by decide) ended)
  refine (whileStatement_joins newline le nested cs).orElse
    (fun _ spells => ?_) ?_
  · obtain ⟨head, ended⟩ := spells.compound (by decide)
    exact (spells.skip (by decide) (spells.skip (by decide)
      (spells.skip (by decide) ended))).dooms head
  refine (doStatement_joins newline le nested cs).orElse (fun _ spells => ?_) ?_
  · obtain ⟨head, ended⟩ := spells.compound (by decide)
    exact (spells.skip (by decide) (spells.skip (by decide) ended)).dooms head
  refine (forInStatement_joins newline nested cs).orElse
    (fun _ ⟨spells, never⟩ => ?_) ?_
  · obtain ⟨head, ended⟩ := spells.compound (by decide)
    exact (never.orElse ended).dooms head
  refine (forStatement_joins newline le nested cs).orElse (fun _ spells => ?_)
    (endedStatement_joins newline le cs)
  obtain ⟨head, ended⟩ := spells.compound (by decide)
  exact ended.dooms head

end Nested

/-! ## Statements -/

theorem statement_joins_of (newline : OnNewLine t)
    (steady : t ≠ [] → SteadyBody) (le : d ≤ d') (cs : List Char) :
    Joins t Statement.Alike Adrift (cs.head? ≠ some '\x7d') (statement d)
      (statement d') cs := by
  induction d generalizing d' cs with
  | zero => exact Sinks.joins fun _ => rfl
  | succ d ih =>
      obtain ⟨e, rfl⟩ :=
        Nat.exists_eq_add_of_le' (Nat.le_trans (Nat.le_add_left 1 d) le)
      exact statementBody_joins newline (by omega) steady (ih (by omega)) cs

theorem steadyBody : SteadyBody := by
  have newline : OnNewLine [] := nofun
  have nested {d d' : Nat} (le : d ≤ d') :=
    statement_joins_of newline (fun more => (more rfl).elim) le
  intro d cs offset missed e
  obtain le | le := Nat.le_total d e
  · exact (body_joins newline (nested le) cs).never_deeper missed
  · exact (body_joins newline (nested le) cs).never_flatter missed

theorem statement_joins (newline : OnNewLine t) (le : d ≤ d') (cs : List Char) :
    Joins t Statement.Alike Adrift (cs.head? ≠ some '\x7d') (statement d)
      (statement d') cs :=
  statement_joins_of newline (fun _ => steadyBody) le cs

end Awk.Source
