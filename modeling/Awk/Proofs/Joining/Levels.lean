import Awk.Proofs.Joining.Operand

/-!
# Levels with more text behind them

Every level of an expression finds alike terms on a text alone and with more
behind it, or leaves a rest that no level goes on with.  A level is what the
next tighter one finds and its own `tail`, so that it suffices to look at the
tails.  Where a tail was cut off, no other tail can start, by what their
operators are spelled with, and the tail itself is not found with another depth
either.  For this the same statements are used with nothing behind the text.
-/

namespace Awk.Source

open Awk.Source.Parser (require optional steps here)

variable {t cs : List Char} {d d' : Nat} {sub : Levels} {greater : Bool}

theorem orElse_assoc {α : Type} (p q r : Parser α) :
    ((p <|> q) <|> r) = (p <|> q <|> r) := by
  funext c
  change Parser.orElse (Parser.orElse p q) r c =
    Parser.orElse p (Parser.orElse q r) c
  unfold Parser.orElse
  generalize p c = first
  generalize q c = second
  obtain ⟨one, reach⟩ := first
  obtain ⟨two, reach'⟩ := second
  cases one <;> cases two <;> simp [Nat.max_assoc]

/-! ## Depth -/

theorem unary_sinks_of (signed : ∀ cs, Sinks (sub .unary) cs)
    (plain : Sinks (sub .power) cs) : Sinks (unary sub) cs := by
  intro offset
  change ((unaryTerm sub <|> sub .power) ⟨cs, offset⟩).result = .tooDeep
  rw [result_orElse, unaryTerm, result_bind]
  cases (operator unaryOps ⟨cs, offset⟩).result with
  | found a next => exact congrArg (Found.elim · _ _) ((signed _).bind _)
  | missed => exact plain offset
  | tooDeep => rfl

theorem unary_sinks (shallow : d < 3) (cs : List Char) :
    Sinks (expression d .unary) cs := by
  have zero (level : Level) (cs : List Char) : Sinks (expression 0 level) cs :=
    fun _ => rfl
  have one (cs : List Char) : Sinks (expression 1 .unary) cs :=
    unary_sinks_of (zero _) (zero _ _)
  match d, shallow with
  | 0, _ => exact zero _ cs
  | 1, _ => exact one cs
  | 2, _ => exact unary_sinks_of one (zero _ cs).bind

theorem sum_joins_closed {R : Term → Term → Prop} {D : List Char → Prop}
    {F : Prop} (newline : OnNewLine t) (le : d ≤ d') (closed : ¬Opens cs) :
    Joins t R D F (sum (expression d)) (sum (expression d')) cs := by
  have closed' : ¬Opens (cs ++ t) := by rwa [Opens.append newline]
  by_cases deep : Level.unary.height ≤ d
  · exact Misses.joins (expression_misses closed deep).bind.bind
      (expression_misses closed' (deep.trans le)).bind.bind
  · exact Sinks.joins (expression_sinks closed (by omega)).bind.bind

/-! ## Tails -/

theorem Takes.tail (start : Cursor) (left : Term) (k : Nat) :
    Takes 1 (Source.tail (Source.expression d) greater start left k) := by
  have nested := Takes.expression d
  unfold Source.tail
  split
  · exact infixStep (by decide) .line ((unaryTerm nested).orElse (nested _))
      left
  · exact infixStep (by decide) .lines (nested _) left
  · exact infixStep (by decide) .lines (product nested) left
  · exact concatStep nested left
  · exact (pipeStep nested start).orElse (compareStep nested greater left)
  · exact infixStep (by decide) .line (comparison nested greater) left
  · exact (gap .line).after fun _ => (keyword (by decide)).before fun _ =>
      (gap .line).after fun _ => name.any.map _
  · exact infixStep (by decide) .lines (membership nested greater) left
  · exact infixStep (by decide) .lines (conjunction nested greater) left
  · refine orElse ?_ ?_
    · exact (gap .line).after fun _ => (operator (by decide)).before fun _ =>
        (gap .lines).after fun _ => (nested _).any.map _
    · exact (gap .line).after fun _ => (symbol (by decide)).before fun _ =>
        (gap .lines).after fun _ =>
        (nested _).any.after fun _ => (gap .lines).after fun _ =>
          (symbol (by decide)).any.after fun _ =>
          (gap .lines).after fun _ => (nested _).any.map _

theorem tail_misses_newline (deep : 3 ≤ d) (start : Cursor) (left : Term)
    (k : Nat) (s : List Char) :
    Misses (tail (expression d) greater start left k) ('\n' :: s) := by
  have behind {p : Parser Term} (missed : Misses p ('\n' :: s)) :
      Misses (do blank; p) ('\n' :: s) := fun offset => missed _
  unfold tail
  split
  · exact behind (operator_misses_at (by decide)).bind
  · exact behind (operator_misses_at (by decide)).bind
  · exact behind (operator_misses_at (by decide)).bind
  · have missed : Misses (sum (expression d)) ('\n' :: s) :=
      (unary_misses_at (by decide) deep).bind.bind
    exact fun offset => missed.bind _
  · refine (behind (operator_misses_at (by decide)).bind.bind).orElse.misses ?_
    exact behind (operator_misses_at (by cases greater <;> decide)).bind
  · exact behind (operator_misses_at (by decide)).bind
  · exact behind (keyword_misses_at (by decide) (by decide)).bind
  · exact behind (operator_misses_at (by decide)).bind
  · exact behind (operator_misses_at (by decide)).bind
  · refine (behind (operator_misses_at (by decide)).bind).orElse.misses ?_
    exact behind (symbol_misses_at (by decide)).bind

/-! ## Levels -/

theorem joins_here {D : List Char → Prop} {F : Prop} :
    Joins t (fun _ _ => True) D F here here cs := fun _ _ => .found trivial rfl

def Onward (left left' a a' : Term) : Prop := left.Alike left' → a.Alike a'

def CutOff (greater : Bool) (k : Nat) (cs : List Char) : Prop :=
  Torn (behindGap cs) ∨ goesOn k (behindGap cs) = true ∧
    (greater = false → ∀ e, Never (redirect (expression e)) cs)

theorem cutOff_of_goesOn (k : Nat) (below : k < 10) (other : k ≠ 4)
    (h : Torn (behindGap cs) ∨ goesOn k (behindGap cs) = true) :
    CutOff greater k cs :=
  h.imp id fun there =>
    ⟨there, fun _ _ => redirect_never_of_goesOn below other there⟩

theorem leftGrouped_joins {k : Nat} (below : k < 10) (newline : OnNewLine t)
    (deep : t ≠ [] → 3 ≤ d') (start : Cursor) {inner inner' : Parser Term}
    (first : Joins t Term.Alike (Dead greater) True inner inner' cs)
    (step : ∀ left left' mid,
      Joins t (Onward left left') (Dead greater) (Dead greater mid)
        (tail (expression d) greater start left k)
        (tail (expression d') greater start left' k) mid) :
    Joins t Term.Alike (Dead greater) True
      (leftGrouped inner fun left => tail (expression d) greater start left k)
      (leftGrouped inner' fun left => tail (expression d') greater start left k)
        cs := by
  have stuck (mid : List Char) (dead : Dead greater mid) (left : Term) :
      Never (tail (expression d) greater start left k) mid :=
    dead.refuses k below d start left
  refine first.bind (fun left left' mid _ alike => ?_)
    fun _ left mid dead offset => ?_
  · refine Joins.steps (D := Dead greater) (fun left => Takes.tail start left k)
      (fun a a' mid same => ?_) (fun more a' => .inl ?_) (fun mid dead => ⟨dead,
        .inr (stuck mid dead)⟩) alike
    · exact (step a a' mid).alike fun _ _ onward => onward same
    · obtain rfl | ⟨s, rfl⟩ := newline.eq
      · exact (more rfl).elim
      · exact tail_misses_newline (deep more) start a' k s
  · exact dooms_stepsWithin dead (.inr (stuck mid dead)) mid left offset

theorem tailed_joins {k : Nat} {D E : List Char → Prop} {F : Prop}
    (greater : Bool) (start start' : Cursor) {left left' : Term}
    (alike : left.Alike left')
    (step : Joins t (Onward left left') D (E cs)
      (tail (expression d) greater start left k)
      (tail (expression d') greater start' left' k) cs)
    (dead : ∀ rest, D rest → E rest) :
    Joins t Term.Alike E F (tail (expression d) greater start left k <|>
      return left)
      (tail (expression d') greater start' left' k <|> return left') cs :=
  ((step.alike fun _ _ onward => onward alike).imp dead id).orElse
    (fun _ gone _ => .found gone) (joins_pure alike)

theorem tailed_dooms {k : Nat} {E : List Char → Prop} {F : Prop}
    (start : Cursor) {left : Term} (gone : E cs)
    (refuses : Refuses greater k cs) :
    Dooms E F (tail (expression d) greater start left k <|> return left) cs :=
  Dooms.orElse (G := True) ((refuses d start left).dooms trivial) fun _ _ =>
    .found gone

section Nested

variable (newline : OnNewLine t) (steady : t ≠ [] → Steadfast)
    (deep : t ≠ [] → 3 ≤ d) (le : d ≤ d')
    (nested : ∀ level cs,
      Joins t Term.Alike level.Stops (Opens cs) (expression d level)
        (expression d' level) cs)

include newline

theorem infixStep_joins {D : List Char → Prop} {g : Gap}
    {ops : List (Operator BinaryOp)} {right right' : Parser Term}
    (inline : ops.all Operator.isInline = true)
    (other : startOtherwise ops '\\' = true) (idle : Idle g right)
    (h : ∀ rest, Joins t Term.Alike D True right right' rest)
    (left left' : Term) (cs : List Char) :
    Joins t (Onward left left') D (Torn (behindGap cs) ∨
      ops.any (fun op => (op.scan (behindGap cs)).isSome) = true)
      (infixStep g ops right left) (infixStep g ops right' left') cs := by
  refine .behind newline (idle_operator other _).bind
    (fun _ cut => .inl (by simpa [Gap.Cut] using cut)) ?_
  refine .operator newline inline fun op op' rest found same => ?_
  have lost : Torn (behindGap cs) ∨
      ops.any (fun op => (op.scan (behindGap cs)).isSome) = true :=
    .inr found.any
  refine .behind newline idle.bind (fun _ _ => lost) ?_
  refine ((h _).weaken fun _ => lost).map fun value value' alike left => ?_
  rw [same]
  exact .binary _ left alike

include steady in
omit newline in
/-- Where a level was cut off, nothing can be looked for any more. -/
theorem Joins.tail_dead {k : Nat} (below : k < 10) {R : Term → Term → Prop}
    {D : List Char → Prop} {F : Prop} {p' : Parser Term} {start : Cursor}
    {left : Term}
    (h : Joins t R D F (tail (expression d) greater start left k) p' cs)
    (cut : F → CutOff greater k cs) :
    Joins t R D (Dead greater cs) (tail (expression d) greater start left k) p'
      cs := by
  refine h.missing fun more lost offset missed => ?_
  obtain torn | ⟨there, redirect⟩ := cut lost
  · exact torn.blocked.dead greater
  · exact dead_of_goesOn below there ((steady more).tail below missed) redirect

/-! ### Powers and signs -/

include nested in
theorem exponent_joins (cs : List Char) :
    Joins t Term.Alike Blocked True (unaryTerm (expression d) <|>
      expression d .power)
      (unaryTerm (expression d') <|> expression d' .power) cs := by
  refine (unaryTerm_joins newline nested cs).orElse (fun _ sign => ?_) ?_
  · refine Never.dooms ?_ trivial
    cases d with
    | zero => exact Sinks.never fun _ => rfl
    | succ d =>
        cases d with
        | zero => exact Sinks.never fun _ => rfl
        | succ d => exact (operand_misses_sign sign).bind.never
  · exact (nested .power cs).weaken fun _ => trivial

include steady nested in
theorem powerStep_joins (start start' : Cursor) (left left' : Term)
    (cs : List Char) :
    Joins t (Onward left left') Blocked (Blocked cs)
      (tail (expression d) greater start left 0)
      (tail (expression d') greater start' left' 0) cs := by
  have idle : Idle .line (unaryTerm (expression d) <|> expression d .power) :=
    (idle_operator (by decide) _).bind.orElse (idle_expression _ _)
  have form (d : Nat) (greater : Bool) (start : Cursor) (left : Term) :
      tail (expression d) greater start left 0 =
        infixStep .line powerOps (unaryTerm (expression d) <|>
          expression d .power) left := rfl
  rw [form, form]
  refine (infixStep_joins newline (by decide) (by decide) idle
    (exponent_joins newline nested) left left' cs).missing
    fun more lost offset missed => ?_
  obtain torn | there := lost
  · exact torn.blocked
  · refine blocked_of_power there fun greater => ?_
    rw [← form d greater start] at missed
    exact (steady more).tail (by decide) missed

include steady nested in
theorem power_joins (cs : List Char) :
    Joins t Term.Alike Blocked True (power (expression d))
      (power (expression d')) cs := by
  refine ((nested .operand cs).weaken fun _ => trivial).bind
    (fun left left' mid _ alike => ?_) fun _ left mid blocked => ?_
  · exact tailed_joins true ⟨[], 0⟩ ⟨[],
      0⟩ alike (powerStep_joins newline steady nested _ _ left left' mid)
      fun _ => id
  · exact tailed_dooms ⟨[],
      0⟩ blocked ((blocked.dead true).refuses 0 (by decide))

/-! ### Arithmetic and concatenation -/

include steady in
theorem infixTail_joins {g : Gap} {ops : List (Operator BinaryOp)}
    {right right' : Parser Term} (k : Nat) (below : k < 10) (other : k ≠ 4)
    (start start' : Cursor) (left left' : Term) (cs : List Char)
    (form : ∀ cs, goesOn k cs = ops.any fun op => (op.scan cs).isSome)
    (same : tail (expression d) greater start left k =
      infixStep g ops right left)
    (same' : tail (expression d') greater start' left' k =
      infixStep g ops right' left') (inline : ops.all Operator.isInline = true)
    (stop : startOtherwise ops '\\' = true) (idle : Idle g right) (h : ∀ rest,
      Joins t Term.Alike (Dead greater) True right right' rest) :
    Joins t (Onward left left') (Dead greater) (Dead greater cs)
      (tail (expression d) greater start left k)
      (tail (expression d') greater start' left' k) cs := by
  rw [same']
  have step := infixStep_joins newline inline stop idle h left left' cs
  rw [← form, ← same] at step
  exact step.tail_dead steady below (cutOff_of_goesOn k below other)

include steady nested in
theorem mulStep_joins (start start' : Cursor) (left left' : Term)
    (cs : List Char) :
    Joins t (Onward left left') (Dead greater) (Dead greater cs)
      (tail (expression d) greater start left 1)
      (tail (expression d') greater start' left' 1) cs :=
  infixTail_joins newline steady 1 (by decide) (by decide) start start' left
    left' cs (fun _ => rfl) rfl rfl (by decide) (by decide)
    (idle_expression _ _) fun rest =>
      (nested .unary rest).imp (fun _ blocked => blocked.dead greater) fun _ =>
        trivial

include steady deep le nested in
theorem product_joins (cs : List Char) :
    Joins t Term.Alike (Dead greater) True (product (expression d))
      (product (expression d')) cs := by
  refine leftGrouped_joins (k := 1) (by decide) newline
    (fun more => (deep more).trans le) ⟨[], 0⟩ ?_ fun left left' mid => ?_
  · exact (nested .unary cs).imp (fun _ blocked => blocked.dead greater)
      fun _ => trivial
  · exact mulStep_joins newline steady nested _ _ left left' mid

include steady deep le nested in
theorem addStep_joins (start start' : Cursor) (left left' : Term)
    (cs : List Char) :
    Joins t (Onward left left') (Dead greater) (Dead greater cs)
      (tail (expression d) greater start left 2)
      (tail (expression d') greater start' left' 2) cs :=
  infixTail_joins newline steady 2 (by decide) (by decide) start start' left
    left' cs (fun _ => rfl) rfl rfl (by decide) (by decide)
    (idle_expression _ _).bind (product_joins newline steady deep le nested)

include steady deep le nested in
theorem sum_joins (cs : List Char) :
    Joins t Term.Alike (Dead greater) True (sum (expression d))
      (sum (expression d')) cs :=
  leftGrouped_joins (k := 2) (by decide) newline
    (fun more => (deep more).trans le) ⟨[],
      0⟩ (product_joins newline steady deep le nested cs)
    (addStep_joins newline steady deep le nested _ _)

include steady deep le nested in
theorem concatStep_joins (start start' : Cursor) (left left' : Term)
    (cs : List Char) :
    Joins t (Onward left left') (Dead greater) (Dead greater cs)
      (tail (expression d) greater start left 3)
      (tail (expression d') greater start' left' 3) cs := by
  refine Joins.tail_dead steady (by decide) ?_
    (cutOff_of_goesOn 3 (by decide) (by decide))
  refine .behind newline (fun rest cut => ?_)
    (fun _ cut => .inl (by simpa [Gap.Cut] using cut)) ?_
  · refine never_bind fun offset _ next found => ?_
    obtain ⟨same, -⟩ := Leaves.require ⟨offset, next, found, rfl⟩
    rw [same]
    exact (sum_never (expression_never cut.closed _)).bind
  · refine .require (congrArg (!·) (startsOperator_newline newline _))
      fun free => ?_
    refine Joins.map (R := Term.Alike) ?_ fun right right' alike onward =>
      .binary _ onward alike
    by_cases opens : Opens (behindGap cs)
    · refine (sum_joins newline steady deep le nested _).weaken fun _ => .inr ?_
      exact Bool.and_eq_true_iff.2 ⟨free, opens⟩
    · exact sum_joins_closed newline le opens

include steady deep le nested in
theorem concatenation_joins (cs : List Char) :
    Joins t Term.Alike (Dead greater) True (concatenation (expression d))
      (concatenation (expression d')) cs :=
  leftGrouped_joins (k := 3) (by decide) newline
    (fun more => (deep more).trans le) ⟨[],
      0⟩ (sum_joins newline steady deep le nested cs)
    (concatStep_joins newline steady deep le nested _ _)

/-! ### Comparisons -/

omit newline in
theorem concatenation_idle (g : Gap) : Idle g (concatenation (expression d)) :=
  fun _ cut => concatenation_never (expression_never cut.closed _)

omit newline in
theorem comparison_idle (g : Gap) :
    Idle g (comparison (expression d) greater) :=
  fun _ cut => never_bind fun _ _ _ found => by
    cases found
    exact (concatenation_never (expression_never cut.closed _)).bind

omit newline in
theorem goesOn_compare
    (there : (compareOps greater).any (fun op => (op.scan cs).isSome) = true) :
    goesOn 4 cs = true := by
  refine Bool.or_eq_true_iff.2 (.inr ?_)
  cases greater with
  | true => exact there
  | false =>
      rw [compareOps, List.any_append, Bool.or_eq_true_iff] at there ⊢
      exact there.imp id fun none => absurd none Bool.false_ne_true

omit newline in
theorem goesOn_pipe {r : List Char} (torn : Torn (behindGap r)) :
    goesOn 4 ('|' :: r) = true := by
  have single : r.head? ≠ some '|' := by
    intro leads
    obtain ⟨r', rfl⟩ := List.head?_eq_some_iff.1 leads
    rw [behindGap_solid (by decide)] at torn
    obtain torn | torn := torn <;> cases torn
  cases r with
  | nil => rfl
  | cons c r => simp_all [goesOn, Operator.scan, Text.dropFront?]

include steady nested in
theorem pipeStep_joins (start start' : Cursor) (cs : List Char) :
    Joins t Term.Alike Blocked (Torn (behindGap cs) ∨
      ∃ r, behindGap cs = '|' :: r ∧ Torn (behindGap r))
      (pipeStep (expression d) start) (pipeStep (expression d') start') cs := by
  refine .behind newline (idle_operator (by decide) _).bind.bind
    (fun _ cut => .inl (by simpa [Gap.Cut] using cut)) ?_
  refine .symbolNotBefore newline (by decide) fun mid free leads => ?_
  refine .behind newline (idle_words (by decide) (by decide) _).bind
    (fun _ cut => .inr ⟨mid, leads, ?_⟩) ?_
  · simpa [Gap.Cut] using cut
  · refine .words newline (by decide) fun _ _ rest _ _ => ?_
    refine (place_joins newline steady nested rest).bind (fun _ _ mid _ _ => ?_)
      fun _ _ mid blocked _ => .found blocked
    exact joins_here.map fun _ _ _ => rfl

include steady deep le nested in
theorem compareTail_joins (start start' : Cursor) (left left' : Term)
    (cs : List Char) :
    Joins t (Onward left left') (Dead greater) (Dead greater cs)
      (tail (expression d) greater start left 4)
      (tail (expression d') greater start' left' 4) cs := by
  have other : ∀ c ∈ ['\\', '|'], startOtherwise (compareOps greater) c =
      true := by cases greater <;> decide
  have misses {c : Char} {r : List Char} (leads : behindGap cs = c :: r)
      (stop : c ∈ ['\\', '|']) :
      Never (compareStep (expression d) greater left) cs :=
    infixStep_never (leads ▸ any_scan_of_head (other c stop) r)
  refine Joins.tail_dead (F := CutOff greater 4 cs) steady (by decide) ?_ id
  have piped :=
    (pipeStep_joins newline steady nested start start' cs).imp
      (fun _ blocked => blocked.dead greater) id
  refine (piped.alike fun _ _ alike _ => alike).orElse (fun _ lost => ?_) ?_
  · obtain torn | ⟨r, leads, torn⟩ := lost
    · have never : Never (compareStep (expression d) greater left) cs := by
        obtain leads | leads := torn <;> exact misses leads (by decide)
      exact never.dooms (.inl torn)
    · refine (misses leads (by decide)).dooms (.inr ⟨?_,
        fun _ _ => redirect_never_of_pipe leads torn⟩)
      rw [leads]
      exact goesOn_pipe torn
  · refine (infixStep_joins newline (by cases greater <;> decide)
      (other _ (by decide)) (concatenation_idle _)
      (concatenation_joins newline steady deep le nested) left left' cs).weaken
      (Or.imp id fun there => ?_)
    refine ⟨goesOn_compare there, fun plain _ => ?_⟩
    subst plain
    exact redirect_never_of_compare there

include steady deep le nested in
theorem comparison_joins (cs : List Char) :
    Joins t Term.Alike (Dead greater) True (comparison (expression d) greater)
      (comparison (expression d') greater) cs := by
  unfold comparison
  refine (joins_here (D := fun _ => False)).bind
    (fun start start' mid _ _ => ?_) fun _ _ _ => False.elim
  refine Joins.bind (D := Dead greater)
    (concatenation_joins newline steady deep le nested mid)
    (fun left left' mid _ alike => ?_) fun _ left mid dead => ?_
  · rw [← orElse_assoc, ← orElse_assoc]
    exact tailed_joins greater start start' alike
      (compareTail_joins newline steady deep le nested start start' left left'
        mid) fun _ => id
  · rw [← orElse_assoc]
    exact tailed_dooms start dead (dead.refuses 4 (by decide))

/-! ### Matches, members and conditions -/

include steady deep le nested in
theorem matchStep_joins (start start' : Cursor) (left left' : Term)
    (cs : List Char) :
    Joins t (Onward left left') (Dead greater) (Dead greater cs)
      (tail (expression d) greater start left 5)
      (tail (expression d') greater start' left' 5) cs :=
  infixTail_joins newline steady 5 (by decide) (by decide) start start' left
    left' cs (fun _ => rfl) rfl rfl (by decide) (by decide) (comparison_idle _)
    (comparison_joins newline steady deep le nested)

include steady deep le nested in
theorem matching_joins (cs : List Char) :
    Joins t Term.Alike (Dead greater) True (matching (expression d) greater)
      (matching (expression d') greater) cs :=
  leftGrouped_joins (k := 5) (by decide) newline
    (fun more => (deep more).trans le) ⟨[],
      0⟩ (comparison_joins newline steady deep le nested cs)
    (matchStep_joins newline steady deep le nested _ _)

include steady in
theorem memberStep_joins (start start' : Cursor) (left left' : Term)
    (cs : List Char) :
    Joins t (Onward left left') (Dead greater) (Dead greater cs)
      (tail (expression d) greater start left 6)
      (tail (expression d') greater start' left' 6) cs := by
  refine Joins.tail_dead steady (by decide) ?_
    (cutOff_of_goesOn 6 (by decide) (by decide))
  refine .behind newline (idle_words (by decide) (by decide) _).bind
    (fun _ cut => .inl (by simpa [Gap.Cut] using cut)) ?_
  refine .words newline (by decide) fun w w' rest word _ => ?_
  have lost : Torn (behindGap cs) ∨ goesOn 6 (behindGap cs) = true := by
    obtain ⟨n, scanned, -⟩ := word.token
    exact .inr (Option.isSome_iff_exists.2 ⟨n, scanned⟩)
  refine .behind newline (idle_name _).bind (fun _ _ => lost) ?_
  exact .name newline fun _ _ _ _ same => joins_pure fun onward =>
    .member onward same

include steady deep le nested in
theorem membership_joins (cs : List Char) :
    Joins t Term.Alike (Dead greater) True (membership (expression d) greater)
      (membership (expression d') greater) cs :=
  leftGrouped_joins (d := d) (k := 6) (by decide) newline
    (fun more => (deep more).trans le) ⟨[],
      0⟩ (matching_joins newline steady deep le nested cs)
    (memberStep_joins newline steady _ _)

include steady deep le nested in
theorem andStep_joins (start start' : Cursor) (left left' : Term)
    (cs : List Char) :
    Joins t (Onward left left') (Dead greater) (Dead greater cs)
      (tail (expression d) greater start left 7)
      (tail (expression d') greater start' left' 7) cs :=
  infixTail_joins newline steady 7 (by decide) (by decide) start start' left
    left' cs (fun _ => rfl) rfl rfl (by decide) (by decide)
    (comparison_idle _).bind.bind
    (membership_joins newline steady deep le nested)

include steady deep le nested in
theorem conjunction_joins (cs : List Char) :
    Joins t Term.Alike (Dead greater) True (conjunction (expression d) greater)
      (conjunction (expression d') greater) cs :=
  leftGrouped_joins (k := 7) (by decide) newline
    (fun more => (deep more).trans le) ⟨[],
      0⟩ (membership_joins newline steady deep le nested cs)
    (andStep_joins newline steady deep le nested _ _)

include steady deep le nested in
theorem orStep_joins (start start' : Cursor) (left left' : Term)
    (cs : List Char) :
    Joins t (Onward left left') (Dead greater) (Dead greater cs)
      (tail (expression d) greater start left 8)
      (tail (expression d') greater start' left' 8) cs :=
  infixTail_joins newline steady 8 (by decide) (by decide) start start' left
    left' cs (fun _ => rfl) rfl rfl (by decide) (by decide)
    (comparison_idle _).bind.bind.bind
    (conjunction_joins newline steady deep le nested)

include steady deep le nested in
theorem disjunction_joins (cs : List Char) :
    Joins t Term.Alike (Dead greater) True (disjunction (expression d) greater)
      (disjunction (expression d') greater) cs :=
  leftGrouped_joins (k := 8) (by decide) newline
    (fun more => (deep more).trans le) ⟨[],
      0⟩ (conjunction_joins newline steady deep le nested cs)
    (orStep_joins newline steady deep le nested _ _)

/-! ### Whole expressions -/

include nested in
theorem assignStep_joins (left left' : Term) (cs : List Char) :
    Joins t (Onward left left') (Dead greater)
      (Torn (behindGap cs) ∨
        assignOps.any (fun op => (op.scan (behindGap cs)).isSome) = true)
      (assignStep (expression d) greater left)
        (assignStep (expression d') greater left') cs := by
  refine .behind newline (idle_operator (by decide) _).bind
    (fun _ cut => .inl (by simpa [Gap.Cut] using cut)) ?_
  refine .operator newline (by decide) fun op op' rest found same => ?_
  have lost : Torn (behindGap cs) ∨
      assignOps.any (fun op => (op.scan (behindGap cs)).isSome) = true :=
    .inr found.any
  refine .behind newline (idle_expression _ _).bind (fun _ _ => lost) ?_
  refine ((nested (.expr greater) _).weaken fun _ => lost).map
    fun value value' alike onward => ?_
  exact .assign same onward alike

include nested in
theorem ternaryStep_joins (left left' : Term) (cs : List Char) :
    Joins t (Onward left left') (Dead greater) (Torn (behindGap cs) ∨
      LedBy '?' cs)
      (ternaryStep (expression d) greater left)
        (ternaryStep (expression d') greater left') cs := by
  refine .behind newline (idle_symbol (by decide) _).bind
    (fun _ cut => .inl (by simpa [Gap.Cut] using cut)) ?_
  refine .symbol newline (by decide) fun rest leads => ?_
  have lost : Torn (behindGap cs) ∨ LedBy '?' cs := .inr ⟨rest, leads⟩
  have branch (rest : List Char) :
      Joins t Term.Alike (Dead greater) (Torn (behindGap cs) ∨
        LedBy '?' cs) (expression d (.expr greater))
        (expression d' (.expr greater)) rest :=
    (nested (.expr greater) rest).weaken fun _ => lost
  refine .behind newline (idle_expression _ _).bind (fun _ _ => lost)
    ((branch _).bind (fun yes yes' mid _ alike => ?_) ?_)
  · refine .behind newline (idle_symbol (by decide) _).bind (fun _ _ => lost) ?_
    refine .symbol newline (by decide) fun rest _ =>
      .behind newline (idle_expression _ _).bind (fun _ _ => lost) ?_
    exact (branch _).map fun no no' alike' onward =>
      .ternary onward alike alike'
  · exact fun _ yes mid dead =>
      (dead.astray.symbol .lines (by decide)).dooms lost

include steady nested in
theorem finalStep_joins (start start' : Cursor) (left left' : Term)
    (cs : List Char) :
    Joins t (Onward left left') (Dead greater) (Dead greater cs)
      (tail (expression d) greater start left 9)
      (tail (expression d') greater start' left' 9) cs := by
  refine Joins.tail_dead steady (by decide) ?_
    (cutOff_of_goesOn 9 (by decide) (by decide))
  refine Joins.orElse (assignStep_joins newline nested left left' cs)
    (fun _ lost => ?_) ?_
  · have absent : [(⟨"?", [], ()⟩ : Operator Unit)].any
        (fun op => (op.scan (behindGap cs)).isSome) = false := by
      obtain (leads | leads) | there := lost
      · rw [leads]
        rfl
      · rw [leads]
        rfl
      · exact any_scan_of_apart
          (by decide +kernel :
            apart assignOps [(⟨"?", [], ()⟩ : Operator Unit)] = true) there
    have never : Never (ternaryStep (expression d) greater left) cs :=
      .gap (operator_misses_any absent).bind.bind.never
    exact never.dooms (lost.imp id fun there =>
      Bool.or_eq_true_iff.2 (.inl there))
  · refine (ternaryStep_joins newline nested left left' cs).weaken
      (Or.imp id fun ⟨r, leads⟩ => ?_)
    rw [leads, goesOn, Bool.or_eq_true_iff]
    · exact .inr (by cases r <;> rfl)
    all_goals decide

include steady deep le nested in
theorem wholeExpr_joins (cs : List Char) :
    Joins t Term.Alike (Dead greater) True (wholeExpr (expression d) greater)
      (wholeExpr (expression d') greater) cs := by
  unfold wholeExpr
  refine (disjunction_joins newline steady deep le nested cs).bind
    (fun left left' mid _ alike => ?_) fun _ left mid dead => ?_
  · rw [← orElse_assoc, ← orElse_assoc]
    exact tailed_joins greater ⟨[], 0⟩ ⟨[],
      0⟩ alike (finalStep_joins newline steady nested _ _ left left' mid)
      fun _ => id
  · rw [← orElse_assoc]
    exact tailed_dooms ⟨[], 0⟩ dead (dead.refuses 9 (by decide))

include steady deep le nested in
theorem tail_joins {k : Nat} (below : k < 10) (start start' : Cursor)
    (left left' : Term) (cs : List Char) :
    Joins t (Onward left left') (Dead greater) (Dead greater cs)
      (tail (expression d) greater start left k)
      (tail (expression d') greater start' left' k) cs := by
  match k, below with
  | 0, _ =>
      exact (powerStep_joins newline steady nested start start' left left'
        cs).imp (fun _ blocked => blocked.dead greater) fun blocked =>
          blocked.dead greater
  | 1, _ => exact mulStep_joins newline steady nested start start' left left' cs
  | 2, _ =>
      exact addStep_joins newline steady deep le nested start start' left left'
        cs
  | 3, _ =>
      exact concatStep_joins newline steady deep le nested start start' left
        left' cs
  | 4, _ =>
      exact compareTail_joins newline steady deep le nested start start' left
        left' cs
  | 5, _ =>
      exact matchStep_joins newline steady deep le nested start start' left
        left' cs
  | 6, _ => exact memberStep_joins newline steady start start' left left' cs
  | 7, _ =>
      exact andStep_joins newline steady deep le nested start start' left left'
        cs
  | 8, _ =>
      exact orStep_joins newline steady deep le nested start start' left left'
        cs
  | 9, _ =>
      exact finalStep_joins newline steady nested start start' left left' cs

include steady le nested in
/-- Where there is more text, the level is deep enough for an operand or finds
nothing. -/
theorem levelBody_joins (level : Level) (cs : List Char) :
    Joins t Term.Alike level.Stops True (levelBody (expression d) level)
      (levelBody (expression d') level) cs := by
  cases level with
  | expr greater =>
      by_cases deep : 3 ≤ d
      · exact wholeExpr_joins newline steady (fun _ => deep) le nested cs
      · have sunk : Sinks (expression d .unary) cs := unary_sinks (by omega) cs
        have comparison : Sinks (comparison (expression d) greater) cs :=
          finds_here.bind_sinks fun _ _ => sunk.bind.bind.bind.bind
        exact Sinks.joins comparison.bind.bind.bind.bind.bind
  | unary => exact exponent_joins newline nested cs
  | power => exact power_joins newline steady nested cs
  | operand => exact operand_joins newline steady nested le cs
  | field => exact field_joins newline steady nested le cs

end Nested

/-! ## Expressions -/

theorem expression_joins_of (newline : OnNewLine t)
    (steady : t ≠ [] → Steadfast) (le : d ≤ d') (level : Level)
    (cs : List Char) :
    Joins t Term.Alike level.Stops (Opens cs) (expression d level)
      (expression d' level) cs := by
  by_cases opens : Opens cs
  · induction d generalizing d' level cs with
    | zero => exact Sinks.joins fun _ => rfl
    | succ d ih =>
        obtain ⟨e, rfl⟩ :=
          Nat.exists_eq_add_of_le' (Nat.le_trans (Nat.le_add_left 1 d) le)
        have nested (level : Level) (cs : List Char) :
            Joins t Term.Alike level.Stops (Opens cs) (expression d level)
              (expression e level) cs := by
          by_cases opens : Opens cs
          · exact ih (by omega) level cs opens
          · exact expression_joins_closed newline opens (by omega) level
        exact (levelBody_joins newline steady (by omega) nested level cs).weaken
          fun _ => opens
  · exact expression_joins_closed newline opens le level

theorem steadfast : Steadfast := by
  have newline : OnNewLine [] := nofun
  have steady : ([] : List Char) ≠ [] → Steadfast := fun more => (more rfl).elim
  have nested {d d' : Nat} (le : d ≤ d') :=
    expression_joins_of newline steady le
  constructor
  case tail =>
    intro d greater start left k cs offset below missed e start' left'
    have joins {d d' : Nat} (le : d ≤ d') (start start' : Cursor)
        (left left' : Term) :
        Joins [] (Onward left left') (Dead greater) (Dead greater cs)
          (tail (expression d) greater start left k)
          (tail (expression d') greater start' left' k) cs :=
      tail_joins newline steady (fun more => (more rfl).elim) le
        (nested le) below start start' left left' cs
    obtain le | le := Nat.le_total d e
    · exact (joins le start start' left left').never_deeper missed
    · exact (joins le start' start left' left).never_flatter missed
  case arguments =>
    intro d cs offset missed e
    obtain le | le := Nat.le_total d e
    · exact (arguments_joins newline (nested le) cs).never_deeper missed
    · exact (arguments_joins newline (nested le) cs).never_flatter missed
  case fieldTarget =>
    intro d cs offset missed e
    obtain le | le := Nat.le_total d e
    · exact (fieldTarget_joins newline steady (nested le) cs).never_deeper
        missed
    · exact (fieldTarget_joins newline steady (nested le) cs).never_flatter
        missed
  case operand =>
    intro d cs offset missed e
    obtain le | le := Nat.le_total d e
    · exact (nested le .operand cs).never_deeper missed
    · exact (nested le .operand cs).never_flatter missed

theorem expression_joins (newline : OnNewLine t) (le : d ≤ d') (level : Level)
    (cs : List Char) :
    Joins t Term.Alike level.Stops (Opens cs) (expression d level)
      (expression d' level) cs :=
  expression_joins_of newline (fun _ => steadfast) le level cs

end Awk.Source
