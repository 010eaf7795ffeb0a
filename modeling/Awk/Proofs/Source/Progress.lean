import Awk.Proofs.Source.Scan

/-!
# How much parsers take

A parser leaves a rest that is no longer than its text, and every expression,
statement and item takes a character at least. So a repetition ends where a step
finds nothing or where the text ends, and not because its bound is reached.
-/

namespace Awk.Source

open Awk.Source.Parser
    (Scanner token require requireSilently optional many steps stepsWithin here)

variable {α β : Type} {m n : Nat} {p q : Parser α} {sub : Levels}

def Takes (n : Nat) (p : Parser α) : Prop :=
  ∀ c a next, (p c).result = .found a next →
    next.rest.length + n ≤ c.rest.length

namespace Takes

/-! ## Combinators -/

theorem mono (h : Takes n p) (le : m ≤ n) : Takes m p := by
  intro c a next found
  have := h c a next found
  omega

theorem any (h : Takes n p) : Takes 0 p := h.mono (Nat.zero_le n)

theorem pure (a : α) : Takes 0 (Pure.pure a : Parser α) := by
  intro c b next found
  cases found
  exact Nat.le_refl _

theorem bind {f : α → Parser β} (first : Takes m p)
    (second : ∀ a, Takes n (f a)) : Takes (m + n) (p >>= f) := by
  intro c b next found
  obtain ⟨a, mid, here, behind⟩ := bind_eq_found found
  have := first c a mid here
  have := second a mid b next behind
  omega

theorem before {f : α → Parser β} (first : Takes n p)
    (second : ∀ a, Takes 0 (f a)) : Takes n (p >>= f) := first.bind second

theorem after {f : α → Parser β} (first : Takes 0 p)
    (second : ∀ a, Takes n (f a)) : Takes n (p >>= f) :=
  (first.bind second).mono (Nat.le_add_left n 0)

theorem map (h : Takes n p) (g : α → β) : Takes n (do let a ← p; return g a) :=
  h.before fun a => pure (g a)

theorem orElse (hp : Takes n p) (hq : Takes n q) : Takes n (p <|> q) := by
  intro c a next found
  rw [result_orElse] at found
  rcases Found.elim_eq_found found with ⟨b, mid, first, same⟩ | ⟨-, second⟩
  · cases same
    exact hp c a next first
  · exact hq c a next second

theorem optional (h : Takes n p) : Takes 0 (optional p) := by
  intro c a next found
  rw [result_optional] at found
  split at found
  · cases found
    exact Nat.le_refl _
  · rcases Found.elim_eq_found found with ⟨b, mid, first, same⟩ | ⟨-, last⟩
    · cases same
      exact h.any c b next first
    · cases last
      exact Nat.le_refl _

theorem stepsWithin {step : α → Parser α} (h : ∀ a, Takes n (step a))
    (bound : List Char) (a : α) :
    Takes 0 (stepsWithin step bound a) := by
  induction bound generalizing a with
  | nil => exact pure a
  | cons b bound ih =>
      intro c a' next found
      rw [result_stepsWithin] at found
      split at found
      · cases found
        exact Nat.le_refl _
      · rcases Found.elim_eq_found found with ⟨b, mid, first, rest⟩ | ⟨-, last⟩
        · have := h a c b mid first
          have := ih b mid a' next rest
          omega
        · cases last
          exact Nat.le_refl _

theorem steps {step : α → Parser α} (h : ∀ a, Takes n (step a)) (a : α) :
    Takes 0 (steps step a) :=
  fun c => stepsWithin h c.rest a c

theorem many (h : Takes n p) : Takes 0 (many p) :=
  (steps (fun found => h.any.map (· :: found)) []).map List.reverse

/-! ## Tokens -/

theorem require (p : List Char → Bool) : Takes 0 (require p) := by
  intro c a next found
  unfold Parser.require at found
  split at found
  · cases found
    exact Nat.le_refl _
  · contradiction

theorem requireSilently (p : List Char → Bool) :
    Takes 0 (requireSilently p) := by
  intro c a next found
  unfold Parser.requireSilently at found
  split at found
  · cases found
    exact Nat.le_refl _
  · contradiction

theorem here : Takes 0 here := by
  intro c a next found
  cases found
  exact Nat.le_refl _

theorem gap (g : Gap) : Takes 0 (gap g) := by
  intro c a next found
  cases found
  simp [Cursor.drop]

theorem token {scan : Scanner} (proper : Proper scan) :
    Takes 1 (token scan) := by
  intro c a next found
  unfold Parser.token at found
  split at found
  · rename_i n scanned
    cases found
    have := proper c.rest n scanned
    simp only [Cursor.drop, List.length_drop]
    omega
  · contradiction

theorem operator {ops : List (Operator α)}
    (inline : ops.all Operator.isInline = true) : Takes 1 (operator ops) := by
  rintro c ⟨a, word⟩ next found
  obtain ⟨op, inside, there, -, rfl⟩ := operator_found found
  obtain ⟨rest, front⟩ := op.scan_front there
  have filled := List.all_eq_true.1 inline op inside
  simp only [Operator.isInline, Bool.and_eq_true, Bool.not_eq_true',
    List.isEmpty_eq_false_iff, ← List.length_pos_iff] at filled
  have := filled.1.1
  simp only [Cursor.drop, List.length_drop, front,
    List.length_append, ← String.length_toList]
  omega

theorem symbol {text : String}
    (inline : (Operator.mk text [] ()).isInline = true) :
    Takes 1 (symbol text) :=
  (operator (by simpa using inline)).before fun _ => pure _

theorem keyword {word : String} (proper : areWords [word] = true) :
    Takes 1 (keyword word) := token (proper_scanWord proper)

theorem name : Takes 1 name := token proper_scanFreeName

/-! ## Lists, targets and primaries -/

theorem commaList (h : Takes 1 p) : Takes 1 (commaList p) :=
  h.before fun _ =>
    ((gap .line).after fun _ => (symbol (by decide)).any.after fun _ =>
      (gap .lines).after fun _ => h).many.map _

section Nested

variable (nested : ∀ level, Takes 1 (sub level))

include nested

theorem subscript : Takes 1 (subscript sub) :=
  (gap .line).after fun _ => (symbol (by decide)).before fun _ =>
    (gap .lines).after fun _ =>
    (commaList (nested _)).any.after fun _ => (gap .lines).after fun _ =>
      (symbol (by decide)).any.map _

theorem arguments : Takes 1 (arguments sub) :=
  (symbol (by decide)).before fun _ => (gap .lines).after fun _ =>
    (commaList (nested _)).optional.after fun _ =>
    (gap .lines).after fun _ => (symbol (by decide)).any.map _

theorem namedTarget : Takes 1 (namedTarget sub) :=
  (name.before fun _ => (subscript nested).any.map _).orElse
    (name.before fun _ => (requireSilently _).map _)

theorem unaryTerm : Takes 1 (unaryTerm sub) :=
  (operator (by decide)).before fun _ => (gap .line).after fun _ =>
    (nested _).any.map _

theorem preIncrement : Takes 1 (preIncrement sub) :=
  (operator (by decide)).before fun _ => (gap .line).after fun _ =>
    (nested _).any.map _

theorem target : Takes 1 (target sub) :=
  ((symbol (by decide)).before fun _ => (gap .line).after fun _ =>
    ((preIncrement nested).orElse ((unaryTerm nested).orElse
      (nested _))).any.map _).orElse (namedTarget nested)

theorem closedPrimary : Takes 1 (closedPrimary sub) := by
  refine orElse ((token proper_scanNumber).map _) ?_
  refine orElse ((token proper_scanString).map _)
    (orElse ((token proper_scanOpenString).map _) ?_)
  refine orElse ((token proper_scanRegex).map _)
    (orElse ((token proper_scanOpenRegex).map _) ?_)
  refine orElse ((symbol (by decide)).before fun _ =>
    (gap .lines).after fun _ => (commaList (nested _)).any.after fun _ =>
    (gap .lines).after fun _ => (symbol (by decide)).any.map _) ?_
  refine orElse ((keyword (by decide)).before fun _ =>
    ((gap .line).after fun _ => target nested).optional.after fun _ =>
    ((gap .line).after fun _ => ((operator (by decide)).before fun _ =>
      pure _).any.after fun _ => (gap .line).after fun _ =>
      nested _).optional.map _) ?_
  refine orElse ((token (proper_scanWord (by decide))).before fun _ =>
    (gap .line).after fun _ => (arguments nested).any.map _) ?_
  exact orElse ((token (proper_scanWord (by decide))).map _)
    (name.before fun _ => (arguments nested).any.map _)

theorem field : Takes 1 (field sub) :=
  (((symbol (by decide)).before fun _ => (gap .line).after fun _ =>
    ((preIncrement nested).orElse ((unaryTerm nested).orElse
      (nested _))).any.map _).map _).orElse
      ((closedPrimary nested).orElse ((namedTarget nested).map _))

theorem operand : Takes 1 (operand sub) := by
  have stepped (t : Target) : Takes 0 (steppedTarget t) :=
    ((gap .line).after fun _ => (operator (by decide)).any.map _).orElse
      (pure _)
  exact (preIncrement nested).orElse
    (((target nested).before stepped).orElse (closedPrimary nested))

end Nested

/-! ## Operators between operands -/

theorem leftGrouped {first : Parser Term} {step : Term → Parser Term}
    (head : Takes 1 first) (h : ∀ left, Takes 1 (step left)) :
    Takes 1 (leftGrouped first step) :=
  head.before fun left => steps h left

theorem infixStep {ops : List (Operator BinaryOp)} {right : Parser Term}
    (inline : ops.all Operator.isInline = true) (g : Gap) (h : Takes 1 right)
    (left : Term) : Takes 1 (infixStep g ops right left) :=
  (gap .line).after fun _ => (operator inline).before fun _ =>
    (gap g).after fun _ => h.any.map _

section Nested

variable (nested : ∀ level, Takes 1 (sub level))

include nested

theorem power : Takes 1 (power sub) :=
  (nested _).before fun _ =>
    ((gap .line).after fun _ => (operator (by decide)).any.after fun _ =>
      (gap .line).after fun _ =>
    ((unaryTerm nested).orElse (nested _)).any.map _).orElse (pure _)

theorem product : Takes 1 (product sub) :=
  leftGrouped (nested _) (infixStep (by decide) .lines (nested _))

theorem sum : Takes 1 (sum sub) :=
  leftGrouped (product nested) (infixStep (by decide) .lines (product nested))

theorem concatStep (left : Term) : Takes 1 (concatStep sub left) :=
  (gap .line).after fun _ => (require _).after fun _ => (sum nested).map _

theorem concatenation : Takes 1 (concatenation sub) :=
  leftGrouped (sum nested) (concatStep nested)

theorem pipeStep (start : Cursor) : Takes 1 (pipeStep sub start) :=
  (gap .line).after fun _ =>
    ((operator (by decide)).before fun _ => pure _).before fun _ =>
      (gap .line).after fun _ =>
    (keyword (by decide)).any.after fun _ =>
      ((gap .line).after fun _ => target nested).optional.after fun _ =>
        here.map _

theorem compareStep (greater : Bool) (left : Term) :
    Takes 1 (compareStep sub greater left) :=
  infixStep (by cases greater <;> decide) .line (concatenation nested) left

theorem comparison (greater : Bool) : Takes 1 (comparison sub greater) :=
  here.after fun start => (concatenation nested).before fun left =>
    (pipeStep nested start).any.orElse
      ((compareStep nested greater left).any.orElse (pure left))

theorem matching (greater : Bool) : Takes 1 (matching sub greater) :=
  leftGrouped (comparison nested greater)
    (infixStep (by decide) .line (comparison nested greater))

theorem membership (greater : Bool) : Takes 1 (membership sub greater) :=
  leftGrouped (matching nested greater) fun _ => (gap .line).after fun _ =>
    (keyword (by decide)).before fun _ =>
    (gap .line).after fun _ => name.any.map _

theorem conjunction (greater : Bool) : Takes 1 (conjunction sub greater) :=
  leftGrouped (membership nested greater)
    (infixStep (by decide) .lines (membership nested greater))

theorem disjunction (greater : Bool) : Takes 1 (disjunction sub greater) :=
  leftGrouped (conjunction nested greater)
    (infixStep (by decide) .lines (conjunction nested greater))

theorem wholeExpr (greater : Bool) : Takes 1 (wholeExpr sub greater) := by
  refine (disjunction nested greater).before fun left =>
    orElse ?_ (orElse ?_ (pure left))
  · exact (gap .line).after fun _ => (operator (by decide)).any.after fun _ =>
      (gap .lines).after fun _ => (nested _).any.map _
  · exact (gap .line).after fun _ => (symbol (by decide)).any.after fun _ =>
      (gap .lines).after fun _ =>
      (nested _).any.after fun _ => (gap .lines).after fun _ =>
        (symbol (by decide)).any.after fun _ =>
        (gap .lines).after fun _ => (nested _).any.map _

end Nested

theorem tooDeep : Takes n (Parser.tooDeep : Parser α) := by
  intro c a next found
  contradiction

theorem expression (d : Nat) (level : Level) :
    Takes 1 (expression d level) := by
  induction d generalizing level with
  | zero => exact tooDeep
  | succ d ih =>
      cases level with
      | expr greater => exact wholeExpr ih greater
      | unary => exact (unaryTerm ih).orElse (ih _)
      | power => exact power ih
      | operand => exact operand ih
      | field => exact field ih

/-! ## Statements and items -/

section Statements

variable {expr : Parser Term} {nested : Parser Statement}

theorem condition (h : Takes 1 expr) : Takes 1 (condition expr) :=
  (symbol (by decide)).before fun _ => (gap .lines).after fun _ =>
    h.any.after fun _ => (gap .lines).after fun _ =>
    (symbol (by decide)).any.map _

theorem body (h : Takes 1 nested) : Takes 1 (body nested) :=
  (gap .lines).after fun _ => ((symbol (by decide)).map _).orElse h

theorem block (h : Takes 1 nested) : Takes 1 (block nested) :=
  (symbol (by decide)).before fun _ => (gap .terms).after fun _ =>
    (h.any.after fun _ => (gap .terms).map _).many.after fun _ =>
    (symbol (by decide)).any.map _

theorem simpleStatement (nested : ∀ level, Takes 1 (sub level)) :
    Takes 1 (simpleStatement sub) := by
  have word (w : String) (s : Statement) (proper : areWords [w] = true) :
      Takes 1 (wordStatement w s) := (keyword proper).map _
  have value (w : String) (make : Option Term →
      Statement) (proper : areWords [w] = true) :
      Takes 1 (valueStatement w make (sub (.expr true))) :=
    (keyword proper).before fun _ =>
      ((gap .line).after fun _ => nested _).optional.map _
  have redirect : Takes 1 (redirect sub) :=
    (gap .line).after fun _ => (operator (by decide)).before fun _ =>
      (gap .line).after fun _ => (concatenation nested).any.map _
  refine orElse ((token (proper_scanWord (by decide))).before fun _ =>
    ((gap .line).after fun _ => commaList (nested _)).optional.after fun _ =>
      redirect.optional.map _) ?_
  refine orElse (word _ _ (by decide)) (orElse (word _ _ (by decide)) ?_)
  refine orElse (word _ _ (by decide)) (orElse (word _ _ (by decide)) ?_)
  refine orElse (value _ _ (by decide)) (orElse (value _ _ (by decide)) ?_)
  refine orElse ((keyword (by decide)).before fun _ =>
    (gap .line).after fun _ => name.any.after fun _ =>
    (subscript nested).optional.map _) ?_
  exact (nested _).map _

theorem forStatement (he : Takes 1 expr) (h : Takes 1 nested) :
    Takes 1 (forStatement expr nested) :=
  (keyword (by decide)).before fun _ => (gap .line).after fun _ =>
    (symbol (by decide)).any.after fun _ =>
    (gap .lines).after fun _ => he.optional.after fun _ =>
      (gap .line).after fun _ => (symbol (by decide)).any.after fun _ =>
      (gap .lines).after fun _ => he.optional.after fun _ =>
        (gap .line).after fun _ => (symbol (by decide)).any.after fun _ =>
        (gap .lines).after fun _ => he.optional.after fun _ =>
          (gap .lines).after fun _ => (symbol (by decide)).any.after fun _ =>
          (body h).any.map _

theorem statementBody (hs : ∀ level, Takes 1 (sub level)) (h : Takes 1 nested) :
    Takes 1 (statementBody sub nested) := by
  refine orElse ((block h).map _) ?_
  refine orElse ((keyword (by decide)).before fun _ =>
    (gap .line).after fun _ => (condition (hs _)).any.after fun _ =>
    (body h).any.after fun _ =>
      ((gap .terms).after fun _ => (keyword (by decide)).any.after fun _ =>
        body h).optional.map _) ?_
  refine orElse ((keyword (by decide)).before fun _ =>
    (gap .line).after fun _ => (condition (hs _)).any.after fun _ =>
    (body h).any.map _) ?_
  refine orElse ((keyword (by decide)).before fun _ =>
    (body h).any.after fun _ => (gap .terms).after fun _ =>
    (keyword (by decide)).any.after fun _ => (gap .line).after fun _ =>
      (condition (hs _)).any.after fun _ =>
      (gap .line).after fun _ => (require _).map _) ?_
  refine orElse ((keyword (by decide)).before fun _ =>
    (gap .line).after fun _ => (symbol (by decide)).any.after fun _ =>
    (gap .line).after fun _ => name.any.after fun _ =>
      (gap .line).after fun _ => (keyword (by decide)).any.after fun _ =>
      (gap .line).after fun _ => name.any.after fun _ =>
        (gap .line).after fun _ => (symbol (by decide)).any.after fun _ =>
        (body h).any.map _) ?_
  refine orElse (forStatement (hs _) h) ?_
  exact (simpleStatement hs).before fun _ => (gap .line).after fun _ =>
    (require _).map _

theorem statement (d : Nat) : Takes 1 (statement d) := by
  induction d with
  | zero => exact tooDeep
  | succ d ih => exact statementBody (expression d) ih

theorem item (he : Takes 1 expr) (h : Takes 1 nested) :
    Takes 1 (item expr nested) := by
  have special (word : String) (head : Head) (proper : areWords [word] = true) :
      Takes 1 (specialItem word head nested) :=
    (keyword proper).before fun _ => (gap .lines).after fun _ =>
      (block h).any.map _
  refine orElse ((token (proper_scanWord (by decide))).before fun _ =>
    (gap .line).after fun _ =>
    (token proper_scanName).any.after fun _ => (gap .line).after fun _ =>
      (symbol (by decide)).any.after fun _ =>
      (gap .lines).after fun _ => (commaList name).optional.after fun _ =>
        (gap .lines).after fun _ =>
        (symbol (by decide)).any.after fun _ => (gap .lines).after fun _ =>
          (block h).any.map _) ?_
  refine orElse (special _ _ (by decide))
    (orElse (special _ _ (by decide)) (orElse ((block h).map _) ?_))
  exact he.before fun _ =>
    ((gap .line).after fun _ => (symbol (by decide)).any.after fun _ =>
      (gap .lines).after fun _ => he).optional.after fun _ =>
        (gap .line).after fun _ =>
          (((block h).map _).any.orElse ((require _).map _)).map _

end Statements

end Takes

end Awk.Source
