import Awk.Proofs.Joining.Alike
import Awk.Proofs.Joining.Refusal

/-!
# Operands with more text behind them

Lists, targets and primaries find alike values on a text alone and with more
behind it.  Where one is cut off by the end of the text, what is found instead
leaves a rest that nothing goes on with: a name without its subscript, a
built-in function without its arguments, or `getline` without its target or its
file.
-/

namespace Awk.Source

open Awk.Source.Parser
    (Scanner token require requireSilently optional many steps)

variable {α α' β : Type} {c : Char} {cs t : List Char} {d d' : Nat}
    {sub : Levels}

/-! ## Lists -/

def Unclosed (greater : Bool) (cs : List Char) : Prop :=
  Dead greater cs ∨ LedBy ',' cs

theorem Unclosed.never {next : Parser β} {text : String} {greater : Bool}
    (h : Unclosed greater cs) (g : Gap) (closing : text ∈ [")", "]"]) :
    Never (do gap g; symbol text; next) cs := by
  have follows : ∀ text ∈ [")", "]"], text.toList.head?.any followers.contains =
      true ∧ startOtherwise [(⟨text, [], ()⟩ : Operator Unit)] ',' = true := by
        decide
  obtain dead | led := h
  · exact dead.astray.symbol g (follows text closing).1
  · exact (led.misses (by decide) g fun _ =>
      (symbol_misses_at (follows text closing).2).bind).never

theorem misses_newline {p : Parser β} (newline : OnNewLine t) (more : t ≠ [])
    (missed : ∀ s, Misses p ('\n' :: s)) :
    Misses (do blank; p) t := by
  obtain rfl | ⟨s, rfl⟩ := newline.eq
  · exact (more rfl).elim
  · exact fun offset => missed s _

theorem commaList_joins {R : α → α' → Prop} {D E : List Char → Prop} {F : Prop}
    {p : Parser α} {p' : Parser α'} (newline : OnNewLine t) (takes : Takes 1 p)
    (idle : Idle .lines p) (first : Joins t R D F p p' cs)
    (others : ∀ mid, Joins t R D True p p' mid)
    (dead : ∀ rest, D rest → E rest ∧ Astray rest)
    (torn : ∀ rest, Torn (behindGap rest) → E rest)
    (comma : ∀ rest, LedBy ',' rest → E rest) :
    Joins t (List.Forall₂ R) E F (commaList p) (commaList p') cs := by
  have step (mid : List Char) :
      Joins t R D (E mid) (do blank; symbol ","; newlines; p)
        (do blank; symbol ","; newlines; p') mid := by
    refine .behind newline ((idle_symbol (by decide) _).bind)
      (fun _ cut => torn mid (by simpa [Gap.Cut] using cut)) ?_
    refine .symbol newline (by decide) fun rest front => ?_
    have led : E mid := comma mid ⟨rest, front⟩
    exact .behind newline idle (fun _ _ => led) ((others _).weaken fun _ => led)
  have takesStep : Takes 1 (do blank; symbol ","; newlines; p) :=
    (Takes.gap .line).after fun _ =>
      (Takes.symbol (by decide)).any.after fun _ =>
        (Takes.gap .lines).after fun _ => takes
  have stuck (rest : List Char) (stop : D rest) :
      Never (do blank; symbol ","; newlines; p) rest :=
    (dead rest stop).2.symbol .line (by decide)
  refine first.bind (fun a a' mid _ same => Joins.map (R := List.Forall₂ R) ?_
    fun _ _ rest => .cons same rest) fun _ a mid stop => ?_
  · refine Joins.many takesStep step (fun more => .inl ?_) fun rest stop =>
      ⟨(dead rest stop).1, .inr (stuck rest stop)⟩
    exact misses_newline newline more fun s =>
      (symbol_misses_at (by decide)).bind
  · exact (dooms_many (dead mid stop).1 (.inr (stuck mid stop))).map

/-! ## Literals and variables -/

section Literals

variable {D : List Char → Prop} {F : Prop} (newline : OnNewLine t)

include newline

theorem numberTerm_joins (cs : List Char) :
    Joins t Term.Alike D F numberTerm numberTerm cs := by
  refine .token proper_scanNumber (scanNumber_newline newline cs)
    fun w w' rest _ same => joins_pure ?_
  rw [same]
  exact .refl _

theorem regexTerm_joins (cs : List Char) :
    Joins t Term.Alike D F regexTerm regexTerm cs := by
  refine .token proper_scanRegex (scanPattern_newline newline _ cs)
    fun w w' rest _ same => joins_pure ?_
  rw [Word.body, Word.body, same]
  exact .refl _

theorem openRegexTerm_joins (cs : List Char) :
    Joins t Term.Alike D F openRegexTerm openRegexTerm cs :=
  .token proper_scanOpenRegex (scanPattern_newline newline _ cs)
    fun _ _ _ _ _ => joins_pure rfl

theorem stringTerm_joins (cs : List Char) :
    Joins t Term.Alike D (OpensString EndsEscaping cs) stringTerm stringTerm
      cs := by
  by_cases escaping : t ≠ [] ∧ OpensString EndsEscaping cs
  · obtain ⟨rest, rfl, ends⟩ := escaping.2
    have absent : scanString ('"' :: rest) = none := by
      rw [scanString, ends]
      rfl
    exact ((token_misses absent).bind.never.dooms escaping.2).joins escaping.1
  · have same : scanString (cs ++ t) = scanString cs := by
      by_cases more : t = []
      · rw [more, List.append_nil]
      · exact scanString_newline newline fun ends => escaping ⟨more, ends⟩
    refine .token proper_scanString same fun w w' rest _ same => joins_pure ?_
    rw [Word.body, Word.body, same]
    exact .refl _

omit newline in
/-- A string that is cut off behind a backslash leaves the backslash. -/
theorem openStringTerm_dooms (escaping : OpensString EndsEscaping cs) :
    Dooms Blocked F openStringTerm cs := by
  obtain ⟨rest, rfl, ends⟩ := escaping
  refine dooms_token rfl fun w offset => .found (Torn.blocked (.inl ?_))
  change behindGap (rest.drop (stringBodyLength rest)) = ['\\']
  rw [ends]
  rfl

theorem openStringTerm_joins (cs : List Char) :
    Joins t Term.Alike Blocked F openStringTerm openStringTerm cs := by
  by_cases escaping : t ≠ [] ∧ OpensString EndsEscaping cs
  · exact (openStringTerm_dooms escaping.2).joins escaping.1
  · refine .token proper_scanOpenString ?_ fun _ _ _ _ _ => joins_pure rfl
    by_cases more : t = []
    · rw [more, List.append_nil]
    · exact scanOpenString_newline newline fun ends => escaping ⟨more, ends⟩

theorem variableName_joins (cs : List Char) :
    Joins t Target.Alike D F variableName variableName cs := by
  refine .name newline fun w w' rest _ same =>
    (joins_requireSilently ?_).map fun _ _ _ => ?_
  · cases rest with
    | nil => obtain rfl | ⟨s, rfl⟩ := newline.eq <;> rfl
    | cons c r => rfl
  · rw [Target.Alike, Target.check, Target.check, same]
    rfl

omit newline in
theorem variableName_dooms {n : Nat} (scanned : scanFreeName cs = some n)
    (blocked : Blocked (cs.drop n)) (plain : (cs.drop n).head? ≠ some '(') :
    Dooms Blocked F variableName cs := by
  refine dooms_token scanned fun w offset => ?_
  have free : ((cs.drop n).head? != some '(') = true := bne_iff_ne.2 plain
  rw [result_map, Parser.requireSilently, if_pos free]
  exact .found blocked

end Literals

/-! ## Where nothing is found -/

theorem any_scan_leads {ops : List (Operator α)}
    (there : ops.any (fun op => (op.scan cs).isSome) = true) {signs : List Char}
    (heads : (ops.all fun op => op.text.toList.head?.any signs.contains) =
      true) : ∃ c r, cs = c :: r ∧ c ∈ signs := by
  obtain ⟨op, inside, there⟩ := List.any_eq_true.1 there
  obtain ⟨rest, front⟩ := op.scan_front there
  have head := List.all_eq_true.1 heads op inside
  cases text : op.text.toList with
  | nil =>
      rw [text] at head
      contradiction
  | cons f front' =>
      rw [text] at head front
      exact ⟨f, _, front, List.contains_iff_mem.1 head⟩

theorem field_never_of_any {ops : List (Operator α)}
    (there : ops.any (fun op => (op.scan cs).isSome) = true)
    (heads : (ops.all fun op => op.text.toList.head?.any ['+', '-',
      '!'].contains) = true) (e : Nat) :
    Never (expression e .field) cs := by
  have facts : ∀ c ∈ ['+', '-', '!'], c ≠ '$' ∧ opensPrimary c = false ∧
      isNameStart c = false := by decide
  obtain ⟨c, r, rfl, sign⟩ := any_scan_leads there heads
  obtain ⟨dollar, primary, start⟩ := facts c sign
  cases e with
  | zero => exact Sinks.never fun _ => rfl
  | succ e =>
      refine (fieldTarget_misses_at dollar).bind.never.orElse ?_
      exact (closedPrimary_misses_at primary).never.orElse
        (namedTarget_misses_at start).bind.never

theorem unary_never (unsigned : Misses (operator unaryOps) cs)
    (never : ∀ e, Never (expression e .operand) cs) (e : Nat) :
    Never (expression e .unary) cs := by
  have power (e : Nat) : Never (expression e .power) cs := by
    cases e with
    | zero => exact Sinks.never fun _ => rfl
    | succ e => exact (never e).bind
  cases e with
  | zero => exact Sinks.never fun _ => rfl
  | succ e => exact unsigned.bind.never.orElse (power e)

theorem operand_misses_sign
    (sign : unaryOps.any (fun op => (op.scan cs).isSome) = true) :
    Misses (operand sub) cs := by
  have unstepped :=
    operator_misses_any (any_scan_of_apart (by
      decide +kernel : apart unaryOps stepOps = true) sign)
  have facts : ∀ c ∈ ['+', '-', '!'], c ≠ '$' ∧ opensPrimary c = false ∧
      isNameStart c = false := by decide
  obtain ⟨c, r, rfl, inside⟩ : ∃ c r, cs = c :: r ∧ c ∈ ['+', '-', '!'] :=
    any_scan_leads sign (by decide)
  obtain ⟨dollar, primary, start⟩ := facts c inside
  refine unstepped.bind.orElse.misses ?_
  exact (target_misses_at dollar start).bind.orElse.misses
    (closedPrimary_misses_at primary)

theorem operand_joins_sign {R : Term → Term → Prop} {D : List Char → Prop}
    {F : Prop} (newline : OnNewLine t) (le : d ≤ d')
    (sign : unaryOps.any (fun op => (op.scan cs).isSome) = true) :
    Joins t R D F (expression d .operand) (expression d' .operand) cs := by
  cases d with
  | zero => exact Sinks.joins fun _ => rfl
  | succ d =>
      obtain ⟨e, rfl⟩ :=
        Nat.exists_eq_add_of_le' (Nat.le_trans (Nat.le_add_left 1 d) le)
      refine Misses.joins (operand_misses_sign sign) (operand_misses_sign ?_)
      rwa [any_scan_newline newline (by decide)]

theorem fileStep_never {r : List Char} (leads : behindGap cs = '<' :: r)
    (never : Never (expression d .operand) (behindGap r)) :
    Never (fileStep (expression d)) cs := by
  refine .gap (never_bind fun offset _ next found => .gap ?_)
  obtain ⟨_, mid, there, last⟩ := bind_eq_found found
  cases last
  obtain ⟨op, inside, -, -, front⟩ := Leaves.operator ⟨offset, next, there, rfl⟩
  rw [List.mem_singleton] at inside
  subst inside
  obtain ⟨-, rfl⟩ := List.cons.inj (leads.symm.trans front)
  exact never

theorem idle_target (g : Gap) : Idle g (target sub) :=
  fun _ cut => (fieldTarget_misses cut.closed).never.orElse
    (namedTarget_misses cut.closed).never

theorem group_never (never : Never (arguments (expression d)) cs) :
    Never (group (expression d)) cs := by
  intro offset a next found
  obtain ⟨_, c₁, paren, found⟩ := bind_eq_found found
  obtain ⟨_, c₂, lines, found⟩ := bind_eq_found found
  obtain ⟨parts, c₃, list, found⟩ := bind_eq_found found
  obtain ⟨_, c₄, lines', found⟩ := bind_eq_found found
  obtain ⟨_, c₅, paren', -⟩ := bind_eq_found found
  have filled : c₂.rest.isEmpty = false := by
    have taken :=
      (Takes.commaList (.expression d (.expr true))) c₂ parts c₃ list
    cases rest : c₂.rest with
    | nil => simp [rest] at taken
    | cons c r => rfl
  have args : (optional (exprList (expression d)) c₂).result =
      .found (some parts) c₃ := by
    rw [result_optional, list, filled]
    rfl
  refine never offset parts c₅ ?_
  rw [arguments, bind_found paren, bind_found lines, bind_found args,
    bind_found lines', bind_found paren']
  rfl

theorem operand_never_paren {r : List Char}
    (never : ∀ e, Never (arguments (expression e)) ('(' :: r)) (e : Nat) :
    Never (expression e .operand) ('(' :: r) := by
  cases e with
  | zero => exact Sinks.never fun _ => rfl
  | succ e =>
      refine (stepOps_misses_at (by decide) (by decide)).bind.never.orElse ?_
      refine (target_misses_at (by decide) (by decide)).bind.never.orElse ?_
      refine (number_misses_at rfl (by decide)).never.orElse ?_
      refine (stringTerm_misses_at (by decide)).never.orElse
        ((openStringTerm_misses_at (by decide)).never.orElse ?_)
      refine (regexTerm_misses_at (by decide)).never.orElse
        ((openRegexTerm_misses_at (by decide)).never.orElse ?_)
      refine (group_never (never e)).orElse
        ((keyword_misses_at (by decide) (by decide)).bind.never.orElse ?_)
      refine (builtinName_misses_at (by decide)).bind.never.orElse
        ((builtinName_misses_at (by decide)).bind.never.orElse ?_)
      exact (name_misses_at (by decide)).bind.never

theorem operand_never_dollar {r : List Char}
    (never : ∀ e, Never (fieldTarget (expression e)) ('$' :: r)) (e : Nat) :
    Never (expression e .operand) ('$' :: r) := by
  cases e with
  | zero => exact Sinks.never fun _ => rfl
  | succ e =>
      refine (stepOps_misses_at (by decide) (by decide)).bind.never.orElse
        (Never.orElse ?_ ?_)
      · exact ((never e).orElse (namedTarget_misses_at (by decide)).never).bind
      · exact (closedPrimary_misses_at (by decide)).never

theorem blocked_of_paren {r : List Char} (leads : behindGap cs = '(' :: r)
    (never : ∀ e, Never (arguments (expression e)) ('(' :: r)) : Blocked cs :=
  blocked_of_opening leads (by decide)
    (unary_never (unaryOps_misses_at (by decide) (by decide) (by decide))
      (operand_never_paren never))

theorem blocked_of_field {r : List Char} (leads : behindGap cs = '$' :: r)
    (never : ∀ e, Never (fieldTarget (expression e)) ('$' :: r)) : Blocked cs :=
  blocked_of_opening leads (by decide)
    (unary_never (unaryOps_misses_at (by decide) (by decide) (by decide))
      (operand_never_dollar never))

/-! ## Nested levels -/

def Level.Stops : Level → List Char → Prop
  | .expr greater => Dead greater
  | _ => Blocked

def FieldLost (cs : List Char) : Prop :=
  ∃ r, cs = '$' :: r ∧ ∀ e, Never (fieldTarget (expression e)) cs

section Nested

variable (newline : OnNewLine t) (steady : t ≠ [] → Steadfast)
    (nested : ∀ level cs,
      Joins t Term.Alike level.Stops (Opens cs) (expression d level)
        (expression d' level) cs)

include newline nested

/-! ### Lists -/

theorem exprs_joins (greater : Bool) (cs : List Char) :
    Joins t (List.Forall₂ Term.Alike) (Unclosed greater) (Opens cs)
      (commaList (expression d (.expr greater)))
      (commaList (expression d' (.expr greater))) cs := by
  refine commaList_joins newline (.expression d _) (idle_expression _ _)
    (nested _ cs) (fun mid => ?_) (fun rest dead => ⟨.inl dead, dead.astray⟩)
    (fun rest torn => .inl (torn.blocked.dead greater)) fun rest led => .inr led
  exact (nested _ mid).weaken fun _ => trivial

theorem subscript_joins (cs : List Char) :
    Joins t (List.Forall₂ Term.Alike) (fun _ => False) (Torn (behindGap cs) ∨
      LedBy '[' cs) (subscript (expression d))
      (subscript (expression d')) cs := by
  refine .behind newline (idle_symbol (by decide) _).bind
    (fun _ cut => .inl (by simpa [Gap.Cut] using cut)) ?_
  refine .symbol newline (by decide) fun rest front => ?_
  have lost : Torn (behindGap cs) ∨ LedBy '[' cs := .inr ⟨rest, front⟩
  refine .behind newline (idle_expression _ _).bind.bind (fun _ _ => lost) ?_
  refine ((exprs_joins newline nested true _).weaken fun _ => lost).bind
    (fun keys keys' mid _ same => ?_) ?_
  · refine .behind newline (idle_symbol (by decide) _).bind (fun _ _ => lost) ?_
    exact .symbol newline (by decide) fun _ _ => joins_pure same
  · exact fun _ _ _ dead => (dead.never .lines (by decide)).dooms lost

theorem arguments_joins (cs : List Char) :
    Joins t (List.Forall₂ Term.Alike) (fun _ => False) (∃ r,
      cs = '(' :: r) (arguments (expression d)) (arguments (expression d'))
      cs := by
  have idle : Idle .lines (commaList (expression d (.expr true))) :=
    (idle_expression _ _).bind
  refine .symbol newline (by decide) fun rest front => ?_
  have lost : ∃ r, cs = '(' :: r := ⟨rest, front⟩
  refine .behind newline (idle.optional ?_) (fun _ _ => lost) ?_
  · exact (idle_symbol (by decide) _).bind.gap _
  · refine (exprs_joins newline nested true _).optionally
      (fun _ empty => .inr fun _ => ?_) (fun _ opens _ => ?_)
      (fun _ _ dead => dead.never .lines (by decide)) (fun _ => lost)
      fun args args' mid same => ?_
    · exact (idle_symbol (by decide) .lines).bind.gap .lines _ (.inr ⟨by decide,
        rfl⟩)
    · exact opens.astray.symbol .lines (by decide)
    · refine .behind newline (idle_symbol (by decide) _).bind
        (fun _ _ => lost) ?_
      refine .symbol newline (by decide) fun _ _ => joins_pure ?_
      cases same with
      | none => exact .nil
      | some same => exact same

theorem group_joins (cs : List Char) :
    Joins t Term.Alike (fun _ => False) (∃ r,
      cs = '(' :: r) (group (expression d)) (group (expression d')) cs := by
  refine .symbol newline (by decide) fun rest front => ?_
  have lost : ∃ r, cs = '(' :: r := ⟨rest, front⟩
  refine .behind newline (idle_expression _ _).bind.bind (fun _ _ => lost) ?_
  refine ((exprs_joins newline nested true _).weaken fun _ => lost).bind
    (fun parts parts' mid _ same => ?_) ?_
  · refine .behind newline (idle_symbol (by decide) _).bind (fun _ _ => lost) ?_
    exact .symbol newline (by decide) fun _ _ => joins_pure (.group same)
  · exact fun _ _ _ dead => (dead.never .lines (by decide)).dooms lost

/-! ### Signs and increments -/

theorem unaryTerm_joins (cs : List Char) :
    Joins t Term.Alike Blocked
      (unaryOps.any (fun op => (op.scan cs).isSome) = true)
      (unaryTerm (expression d)) (unaryTerm (expression d')) cs := by
  refine .operator newline (by decide) fun op op' rest left same => ?_
  have lost := left.any
  refine .behind newline (idle_expression _ _).bind (fun _ _ => lost) ?_
  refine ((nested .unary _).weaken fun _ => lost).map
    fun operand operand' alike => ?_
  rw [same]
  exact .unary _ alike

theorem preIncrement_joins (cs : List Char) :
    Joins t Term.Alike Blocked
      (stepOps.any (fun op => (op.scan cs).isSome) = true)
      (preIncrement (expression d)) (preIncrement (expression d')) cs := by
  refine .operator newline (by decide) fun op op' rest left same => ?_
  have lost := left.any
  refine .behind newline (idle_expression _ _).bind (fun _ _ => lost) ?_
  exact ((nested .field _).weaken fun _ => lost).map
    fun operand operand' alike => .preIncrement same alike

/-! ### Targets -/

include steady in
theorem fieldTarget_joins (cs : List Char) :
    Joins t Target.Alike Blocked (FieldLost cs) (fieldTarget (expression d))
      (fieldTarget (expression d')) cs := by
  have lost : Joins t Target.Alike Blocked (∃ r,
      cs = '$' :: r) (fieldTarget (expression d))
      (fieldTarget (expression d')) cs := by
    refine .symbol newline (by decide) fun rest front => ?_
    have lost : ∃ r, cs = '$' :: r := ⟨rest, front⟩
    refine .behind newline ?_ (fun _ _ => lost)
      (Joins.map (R := Term.Alike) ?_ fun _ _ alike => .field alike)
    · exact ((idle_operator (by decide) _).bind.orElse
        ((idle_operator (by decide) _).bind.orElse (idle_expression _ _))).bind
    · refine (preIncrement_joins newline nested _).orElse (fun _ step => ?_) ?_
      · have unsigned :=
          operator_misses_any (any_scan_of_apart
            (by decide +kernel : apart stepOps unaryOps = true) step)
        exact (unsigned.bind.never.orElse
          (field_never_of_any step (by decide) d)).dooms lost
      · refine (unaryTerm_joins newline nested _).orElse (fun _ sign => ?_) ?_
        · exact (field_never_of_any sign (by decide) d).dooms lost
        · exact (nested .field _).weaken fun _ => lost
  exact lost.missing fun more ⟨r, leads⟩ offset missed =>
    ⟨r, leads, (steady more).fieldTarget missed⟩

theorem namedTarget_joins (cs : List Char) :
    Joins t Target.Alike Blocked False (namedTarget (expression d))
      (namedTarget (expression d')) cs := by
  refine Joins.orElse (G := ∃ n, scanFreeName cs = some n ∧
    Blocked (cs.drop n) ∧ (cs.drop n).head? ≠ some '(') ?_
    (fun _ ⟨n, scanned, blocked, plain⟩ => variableName_dooms scanned blocked
      plain) (variableName_joins newline cs)
  refine .name newline fun w w' rest left same => ?_
  obtain ⟨n, scanned, rfl⟩ := left.token
  refine ((subscript_joins newline nested _).imp nofun fun lost => ?_).map
    fun _ _ alike => .element same alike
  obtain ⟨c, r, leads, stop⟩ : ∃ c r, behindGap (cs.drop n) = c :: r ∧
      c ∈ ['\\', '['] := by
    obtain (leads | leads) | ⟨r, leads⟩ := lost
    · exact ⟨_, _, leads, by decide⟩
    · exact ⟨_, _, leads, by decide⟩
    · exact ⟨_, _, leads, by decide⟩
  refine ⟨n, scanned, blocked_of_stop leads stop, fun paren => ?_⟩
  obtain ⟨r', front⟩ := List.head?_eq_some_iff.1 paren
  rw [front, behindGap_solid (by decide)] at leads
  obtain ⟨rfl, -⟩ := List.cons.inj leads
  contradiction

include steady in
theorem target_joins (cs : List Char) :
    Joins t Target.Alike Blocked (FieldLost cs) (target (expression d))
      (target (expression d')) cs := by
  refine (fieldTarget_joins newline steady nested cs).orElse (fun _ lost => ?_)
    ((namedTarget_joins newline nested cs).weaken False.elim)
  obtain ⟨r, rfl, never⟩ := lost
  exact (namedTarget_misses_at (by decide)).never.dooms ⟨r, rfl, never⟩

/-! ### Calls and `getline` -/

include steady in
theorem builtinCall_joins (cs : List Char) :
    Joins t Term.Alike (fun _ => False) (∃ n,
      scanWord builtinNames cs = some n ∧ Blocked (cs.drop n))
      (builtinCall (expression d)) (builtinCall (expression d')) cs := by
  refine .words newline (by decide) fun w w' rest left same => ?_
  obtain ⟨n, scanned, rfl⟩ := left.token
  refine .behind newline (idle_symbol (by decide) _).bind.bind
    (fun _ cut => ?_) ?_
  · exact ⟨n, scanned, Torn.blocked (by simpa [Gap.Cut] using cut)⟩
  · have lost :=
      (arguments_joins newline nested (behindGap (cs.drop n))).missing
        fun more ⟨r, leads⟩ offset missed =>
          (⟨n, scanned,
            blocked_of_paren leads (leads ▸ (steady more).arguments missed)⟩ :
            ∃ n, scanWord builtinNames cs = some n ∧ Blocked (cs.drop n))
    exact lost.map fun _ _ alike => .call same alike

theorem functionCall_joins (cs : List Char) :
    Joins t Term.Alike (fun _ => False) (∃ n r, scanFreeName cs = some n ∧
      cs.drop n = '(' :: r)
      (functionCall (expression d)) (functionCall (expression d')) cs := by
  refine .name newline fun w w' rest left same => ?_
  obtain ⟨n, scanned, rfl⟩ := left.token
  refine ((arguments_joins newline nested _).weaken fun ⟨r, leads⟩ => ?_).map
    fun _ _ alike => .call same alike
  exact ⟨n, r, scanned, leads⟩

include steady in
theorem fileStep_joins (le : d ≤ d') (cs : List Char) :
    Joins t Term.Alike Blocked (Blocked cs) (fileStep (expression d))
      (fileStep (expression d')) cs := by
  refine .behind newline (idle_operator (by decide) _).bind.bind
    (fun _ cut => Torn.blocked (by simpa [Gap.Cut] using cut)) ?_
  refine .symbolNotBefore newline (by decide) fun mid free leads => ?_
  have alone : mid.head? ≠ some '=' := fun head => by simpa using free '=' head
  have blocked (unsigned : Misses (operator unaryOps) (behindGap mid))
      (never : ∀ e, Never (expression e .operand) (behindGap mid)) :
      Blocked cs := by
    exact blocked_of_file leads alone (unary_never unsigned never) fun e =>
      fileStep_never leads (never e)
  refine .behind newline (idle_expression _ _) (fun _ cut => ?_) ?_
  · exact blocked (operator_misses_closed (by decide) cut.closed) fun e =>
      expression_never cut.closed _
  · by_cases sign : unaryOps.any (fun op => (op.scan (behindGap mid)).isSome) =
      true
    · exact operand_joins_sign newline le sign
    · refine (nested .operand _).missing fun more _ offset missed => ?_
      exact blocked (operator_misses_any (by simpa using sign))
        ((steady more).operand missed)

include steady in
theorem place_joins {F : Prop} (cs : List Char) :
    Joins t (Option.Rel Target.Alike) Blocked F
      (optional do blank; target (expression d))
      (optional do blank; target (expression d'))
      cs := by
  refine Joins.optional (D := Blocked) (G := Blocked cs) ?_
    (fun more _ => .inl ?_) (fun _ => id) fun _ => id
  · refine .behind newline (idle_target _)
      (fun _ cut => Torn.blocked (by simpa [Gap.Cut] using cut)) ?_
    refine (target_joins newline steady nested _).weaken
      fun ⟨r, leads, never⟩ => ?_
    exact blocked_of_field leads (leads ▸ never)
  · exact misses_newline newline more fun s =>
      target_misses_at (by decide) (by decide)

include steady in
theorem getlineTerm_joins (le : d ≤ d') {F : Prop} (cs : List Char) :
    Joins t Term.Alike Blocked F (getlineTerm (expression d))
      (getlineTerm (expression d')) cs := by
  refine .words newline (by decide) fun w w' rest _ _ => ?_
  refine (place_joins newline steady nested rest).bind
    (fun place place' mid _ alike => ?_) fun _ place mid blocked => ?_
  · refine ((fileStep_joins newline steady nested le mid).optional
      (fun more _ => .inl ?_) (fun _ => id) fun _ => id).map
      fun file file' alike' => .getline alike alike'
    exact misses_newline newline more fun s =>
      (operator_misses_at (by decide)).bind.bind
  · exact (((blocked.file d).dooms blocked).optional fun empty => empty ▸
      blocked).map

/-! ### Primaries -/

def ParenLost (cs : List Char) : Prop :=
  (∃ r, cs = '(' :: r) ∨ ∃ n r, scanFreeName cs = some n ∧ cs.drop n = '(' :: r

include steady in
theorem closedPrimary_joins (le : d ≤ d') (cs : List Char) :
    Joins t Term.Alike Blocked (ParenLost cs) (closedPrimary (expression d))
      (closedPrimary (expression d')) cs := by
  refine (numberTerm_joins newline cs).orElse (fun _ => False.elim) ?_
  refine (stringTerm_joins newline cs).orElse (fun _ escaping => ?_) ?_
  · exact (openStringTerm_dooms escaping).orElse False.elim
  refine (openStringTerm_joins newline cs).orElse (fun _ => False.elim) ?_
  refine (regexTerm_joins newline cs).orElse (fun _ => False.elim) ?_
  refine (openRegexTerm_joins newline cs).orElse (fun _ => False.elim) ?_
  refine ((group_joins newline nested cs).imp nofun id).orElse
    (fun _ ⟨r, leads⟩ => ?_) ?_
  · subst leads
    refine Never.dooms ?_ (.inl ⟨r, rfl⟩)
    refine (keyword_misses_at (by decide) (by decide)).bind.never.orElse ?_
    refine (builtinName_misses_at (by decide)).bind.never.orElse
      ((builtinName_misses_at (by decide)).bind.never.orElse ?_)
    exact (name_misses_at (by decide)).bind.never
  refine (getlineTerm_joins newline steady nested le cs).orElse
    (fun _ => False.elim) ?_
  refine ((builtinCall_joins newline steady nested cs).imp nofun id).orElse
    (fun _ ⟨n, scanned, blocked⟩ => ?_) ?_
  · have bare : Dooms Blocked False bareBuiltin cs :=
      dooms_token scanned fun _ _ => .found blocked
    exact bare.orElse False.elim
  refine Joins.orElse (G := False) ?_ (fun _ => False.elim) ?_
  · exact .words newline (by decide) fun _ _ _ _ same =>
      joins_pure (.bareBuiltin same)
  · exact (functionCall_joins newline nested cs).imp nofun .inr

omit nested in
theorem steppedTarget_joins {target target' : Target}
    (alike : target.Alike target') {F : Prop} (cs : List Char) :
    Joins t Term.Alike Blocked F (steppedTarget target)
      (steppedTarget target') cs := by
  refine Joins.orElse (G := Blocked cs) ?_ (fun _ blocked _ => .found blocked)
    (joins_pure (.target alike))
  refine .behind newline (idle_operator (by decide) _).bind
    (fun _ cut => Torn.blocked (by simpa [Gap.Cut] using cut)) ?_
  exact .operator newline (by decide) fun _ _ _ _ same =>
    joins_pure (.postIncrement alike same)

omit newline nested in
theorem steppedTarget_dooms {target : Target} {F : Prop}
    (blocked : Blocked cs) : Dooms Blocked F (steppedTarget target) cs :=
  Dooms.orElse (G := True) (Never.dooms (.gap blocked.step.never.bind) trivial)
    fun _ _ => .found blocked

include steady in
theorem operand_joins (le : d ≤ d') (cs : List Char) :
    Joins t Term.Alike Blocked True (operand (expression d))
      (operand (expression d')) cs := by
  refine (preIncrement_joins newline nested cs).orElse (fun _ step => ?_) ?_
  · have facts : ∀ c ∈ ['+', '-'], c ≠ '$' ∧ opensPrimary c = false ∧
        isNameStart c = false := by decide
    obtain ⟨c, r, rfl, sign⟩ : ∃ c r, cs = c :: r ∧ c ∈ ['+', '-'] :=
      any_scan_leads step (by decide)
    obtain ⟨dollar, primary, start⟩ := facts c sign
    exact ((target_misses_at dollar start).bind.never.orElse
      (closedPrimary_misses_at primary).never).dooms trivial
  refine Joins.orElse (G := FieldLost cs) ?_ (fun _ ⟨r, leads, _⟩ => ?_) ?_
  · refine (target_joins newline steady nested cs).bind
      (fun _ _ mid _ alike => steppedTarget_joins newline alike mid) ?_
    exact fun _ _ _ blocked => steppedTarget_dooms blocked
  · subst leads
    exact (closedPrimary_misses_at (by decide)).never.dooms trivial
  · exact (closedPrimary_joins newline steady nested le cs).weaken fun _ =>
      trivial

omit newline nested in
theorem namedTarget_never_call {n : Nat} {r : List Char}
    (scanned : scanFreeName cs = some n) (leads : cs.drop n = '(' :: r) :
    Never (namedTarget sub) cs := by
  refine Never.orElse (never_bind fun offset w next found => ?_)
    (never_bind fun offset w next found => ?_)
  · obtain ⟨m, scanned', rest⟩ := Leaves.token ⟨offset, next, found, rfl⟩
    obtain rfl : n = m := Option.some.inj (scanned.symm.trans scanned')
    rw [rest, leads]
    have led : LedBy '(' ('(' :: r) := ⟨r, behindGap_solid (by decide) r⟩
    exact (led.misses (by decide) .line fun _ =>
      (symbol_misses_at (by decide)).bind).bind.never
  · obtain ⟨m, scanned', rest⟩ := Leaves.token ⟨offset, next, found, rfl⟩
    obtain rfl : n = m := Option.some.inj (scanned.symm.trans scanned')
    rw [rest, leads]
    have missed : Misses (requireSilently fun rest => rest.head? != some '(')
        ('(' :: r) := fun _ => rfl
    exact missed.bind.never

include steady in
theorem field_joins (le : d ≤ d') (cs : List Char) :
    Joins t Term.Alike Blocked True (field (expression d))
      (field (expression d')) cs := by
  refine ((fieldTarget_joins newline steady nested cs).map fun _ _ =>
    .target).orElse (fun _ ⟨r, leads, _⟩ => ?_) ?_
  · subst leads
    exact ((closedPrimary_misses_at (by decide)).never.orElse
      (namedTarget_misses_at (by decide)).bind.never).dooms trivial
  · refine (closedPrimary_joins newline steady nested le cs).orElse
      (fun _ lost => ?_) ?_
    · obtain ⟨r, rfl⟩ | ⟨n, r, scanned, leads⟩ := lost
      · exact (namedTarget_misses_at (by decide)).bind.never.dooms trivial
      · exact (namedTarget_never_call scanned leads).bind.dooms trivial
    · exact ((namedTarget_joins newline nested cs).weaken False.elim).map
        fun _ _ => .target

end Nested

end Awk.Source
