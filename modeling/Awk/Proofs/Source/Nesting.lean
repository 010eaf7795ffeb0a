import Awk.Source.Parse

/-!
# How deeply a source may nest

The limit of the nesting decides only whether a text is refused for being nested
too deeply.  A parser that meets no such text gives the same with every higher
limit, in what it finds and in how far it reaches.
-/

namespace Awk.Source

open Awk.Source.Parser (optional many steps stepsWithin)

variable {α β : Type}

/-- The second parser gives what the first one gives, unless the first one is
ended by a text that is nested too deeply. -/
def Deepens (p q : Parser α) : Prop := ∀ c, (p c).result ≠ .tooDeep → q c = p c

namespace Deepens

variable {p q : Parser α}

/-! ## Combinators -/

theorem refl (p : Parser α) : Deepens p p := fun _ _ => rfl

theorem tooDeep (q : Parser α) : Deepens Parser.tooDeep q :=
  fun _ met => absurd rfl met

theorem bind {f g : α → Parser β} (first : Deepens p q)
    (second : ∀ a, Deepens (f a) (g a)) :
    Deepens (p >>= f) (q >>= g) := by
  intro c
  change (Parser.bind p f c).result ≠ _ → Parser.bind q g c = Parser.bind p f c
  unfold Parser.bind
  have same := first c
  generalize p c = attempt at same ⊢
  obtain ⟨found, reach⟩ := attempt
  cases found with
  | found a next =>
      intro met
      rw [same nofun]
      dsimp only at met ⊢
      rw [second a next met]
  | missed => exact fun _ => by rw [same nofun]
  | tooDeep => exact fun met => absurd rfl met

theorem after {f g : α → Parser β} (second : ∀ a, Deepens (f a) (g a)) :
    Deepens (p >>= f) (p >>= g) := (refl p).bind second

theorem map (first : Deepens p q) (f : α → β) :
    Deepens (do let a ← p; return f a) (do let a ← q; return f a) :=
  first.bind fun _ => refl _

theorem orElse {p' q' : Parser α} (first : Deepens p q)
    (second : Deepens p' q') :
    Deepens (p <|> p') (q <|> q') := by
  intro c
  change (Parser.orElse p p' c).result ≠ _ →
    Parser.orElse q q' c = Parser.orElse p p' c
  unfold Parser.orElse
  have same := first c
  generalize p c = attempt at same ⊢
  obtain ⟨found, reach⟩ := attempt
  cases found with
  | found a next => exact fun _ => by rw [same nofun]
  | missed =>
      intro met
      rw [same nofun]
      dsimp only at met ⊢
      rw [second c met]
  | tooDeep => exact fun met => absurd rfl met

theorem optional (h : Deepens p q) : Deepens (optional p) (optional q) := by
  intro c
  unfold Parser.optional
  split
  · exact fun _ => rfl
  have same := h c
  generalize p c = attempt at same ⊢
  obtain ⟨found, reach⟩ := attempt
  cases found with
  | found a next => exact fun _ => by rw [same nofun]
  | missed => exact fun _ => by rw [same nofun]
  | tooDeep => exact fun met => absurd rfl met

theorem stepsWithin {f g : α → Parser α} (h : ∀ a, Deepens (f a) (g a))
    (bound : List Char) (a : α) :
    Deepens (stepsWithin f bound a) (stepsWithin g bound a) := by
  induction bound generalizing a with
  | nil => exact refl _
  | cons _ bound ih =>
      intro c
      unfold Parser.stepsWithin
      split
      · exact fun _ => rfl
      have same := h a c
      generalize f a c = attempt at same ⊢
      obtain ⟨found, reach⟩ := attempt
      cases found with
      | found b next =>
          intro met
          rw [same nofun]
          dsimp only at met ⊢
          rw [ih b next met]
      | missed => exact fun _ => by rw [same nofun]
      | tooDeep => exact fun met => absurd rfl met

theorem steps {f g : α → Parser α} (h : ∀ a, Deepens (f a) (g a)) (a : α) :
    Deepens (steps f a) (steps g a) := fun c => stepsWithin h c.rest a c

theorem many (h : Deepens p q) : Deepens (many p) (many q) :=
  (steps (fun found => h.map (· :: found)) []).map List.reverse

/-! ## Lists, targets and primaries -/

theorem commaList (h : Deepens p q) : Deepens (commaList p) (commaList q) :=
  h.bind fun _ => (after fun _ => after fun _ => after fun _ => h).many.map _

section Nested

variable {sub sub' : Levels}
    (nested : ∀ level, Deepens (sub level) (sub' level))

include nested

theorem subscript : Deepens (subscript sub) (subscript sub') :=
  after fun _ => after fun _ => after fun _ =>
    (commaList (nested _)).bind fun _ => refl _

theorem arguments : Deepens (arguments sub) (arguments sub') :=
  after fun _ => after fun _ => (commaList (nested _)).optional.bind fun _ =>
    refl _

theorem namedTarget : Deepens (namedTarget sub) (namedTarget sub') :=
  (after fun _ => (subscript nested).map _).orElse (refl _)

theorem unaryTerm : Deepens (unaryTerm sub) (unaryTerm sub') :=
  after fun _ => after fun _ => (nested _).map _

theorem preIncrement : Deepens (preIncrement sub) (preIncrement sub') :=
  after fun _ => after fun _ => (nested _).map _

theorem fieldTarget : Deepens (fieldTarget sub) (fieldTarget sub') :=
  after fun _ => after fun _ =>
    ((preIncrement nested).orElse ((unaryTerm nested).orElse (nested _))).map _

theorem target : Deepens (target sub) (target sub') :=
  (fieldTarget nested).orElse (namedTarget nested)

theorem getlineTerm : Deepens (getlineTerm sub) (getlineTerm sub') :=
  after fun _ => (after fun _ => target nested).optional.bind fun _ =>
    (after fun _ => after fun _ => after fun _ => nested _).optional.map _

theorem closedPrimary : Deepens (closedPrimary sub) (closedPrimary sub') := by
  have group : Deepens (group sub) (group sub') :=
    after fun _ => after fun _ => (commaList (nested _)).bind fun _ => refl _
  have builtin : Deepens (builtinCall sub) (builtinCall sub') :=
    after fun _ => after fun _ => (arguments nested).map _
  have call : Deepens (functionCall sub) (functionCall sub') :=
    after fun _ => (arguments nested).map _
  refine orElse (refl _) (orElse (refl _)
    (orElse (refl _) (orElse (refl _) ?_)))
  refine orElse (refl _) (orElse group (orElse (getlineTerm nested) ?_))
  exact orElse builtin (orElse (refl _) call)

theorem field : Deepens (field sub) (field sub') :=
  ((fieldTarget nested).map _).orElse
    ((closedPrimary nested).orElse ((namedTarget nested).map _))

theorem operand : Deepens (operand sub) (operand sub') :=
  (preIncrement nested).orElse
    (((target nested).bind fun _ => refl _).orElse (closedPrimary nested))

/-! ## Operators between operands -/

theorem power : Deepens (power sub) (power sub') :=
  (nested _).bind fun _ =>
    (after fun _ => after fun _ => after fun _ =>
      ((unaryTerm nested).orElse (nested _)).map _).orElse (refl _)

omit nested in
theorem leftGrouped {first first' : Parser Term}
    {step step' : Term → Parser Term} (head : Deepens first first')
    (h : ∀ left, Deepens (step left) (step' left)) :
    Deepens (leftGrouped first step) (leftGrouped first' step') :=
  head.bind (steps h)

omit nested in
theorem binaryStep {right right' : Parser Term} (h : Deepens right right')
    (ops : List (Operator BinaryOp)) (left : Term) :
    Deepens (binaryStep ops right left) (binaryStep ops right' left) :=
  after fun _ => after fun _ => after fun _ => h.map _

theorem product : Deepens (product sub) (product sub') :=
  leftGrouped (nested _) (binaryStep (nested _) _)

theorem sum : Deepens (sum sub) (sum sub') :=
  leftGrouped (product nested) (binaryStep (product nested) _)

theorem concatenation : Deepens (concatenation sub) (concatenation sub') :=
  leftGrouped (sum nested) fun _ => after fun _ => after fun _ =>
    (sum nested).map _

theorem comparison (greater : Bool) :
    Deepens (comparison sub greater) (comparison sub' greater) := by
  refine after fun start => (concatenation nested).bind fun left => ?_
  refine orElse ?_ (orElse ?_ (refl _))
  · exact after fun _ => after fun _ => after fun _ => after fun _ =>
      (after fun _ => target nested).optional.bind fun _ => refl _
  · exact after fun _ => after fun _ => after fun _ =>
      (concatenation nested).map _

theorem matching (greater : Bool) :
    Deepens (matching sub greater) (matching sub' greater) :=
  leftGrouped (comparison nested greater) fun _ =>
    after fun _ => after fun _ => after fun _ =>
      (comparison nested greater).map _

theorem membership (greater : Bool) :
    Deepens (membership sub greater) (membership sub' greater) :=
  leftGrouped (matching nested greater) fun _ => refl _

theorem conjunction (greater : Bool) :
    Deepens (conjunction sub greater) (conjunction sub' greater) :=
  leftGrouped (membership nested greater)
    (binaryStep (membership nested greater) _)

theorem disjunction (greater : Bool) :
    Deepens (disjunction sub greater) (disjunction sub' greater) :=
  leftGrouped (conjunction nested greater)
    (binaryStep (conjunction nested greater) _)

theorem wholeExpr (greater : Bool) :
    Deepens (wholeExpr sub greater) (wholeExpr sub' greater) := by
  refine (disjunction nested greater).bind fun left =>
    orElse ?_ (orElse ?_ (refl _))
  · exact after fun _ => after fun _ => after fun _ => (nested _).map _
  · exact after fun _ => after fun _ => after fun _ => (nested _).bind fun _ =>
      after fun _ => after fun _ => after fun _ => (nested _).map _

theorem levelBody (level : Level) :
    Deepens (levelBody sub level) (levelBody sub' level) := by
  cases level with
  | expr greater => exact wholeExpr nested greater
  | unary => exact (unaryTerm nested).orElse (nested _)
  | power => exact power nested
  | operand => exact operand nested
  | field => exact field nested

end Nested

theorem expression (d : Nat) (level : Level) :
    Deepens (expression d level) (expression (d + 1) level) := by
  induction d generalizing level with
  | zero => exact tooDeep _
  | succ d ih => exact levelBody ih level

/-! ## Statements and items -/

section Statements

variable {expr expr' : Parser Term} {nested nested' : Parser Statement}

theorem condition (he : Deepens expr expr') :
    Deepens (condition expr) (condition expr') :=
  after fun _ => after fun _ => he.bind fun _ => refl _

theorem body (h : Deepens nested nested') :
    Deepens (body nested) (body nested') :=
  after fun _ => (refl _).orElse h

theorem block (h : Deepens nested nested') :
    Deepens (block nested) (block nested') :=
  after fun _ => after fun _ => (h.bind fun _ => refl _).many.bind fun _ =>
    refl _

theorem simpleStatement {sub sub' : Levels}
    (hs : ∀ level, Deepens (sub level) (sub' level)) :
    Deepens (simpleStatement sub) (simpleStatement sub') := by
  have print : Deepens (printStatement sub) (printStatement sub') :=
    after fun _ => (after fun _ => commaList (hs _)).optional.bind fun _ =>
      (after fun _ => after fun _ => after fun _ =>
        (concatenation hs).map _).optional.map _
  have value (word : String) (make : Option Term → Statement) :
      Deepens (valueStatement word make (sub (.expr true)))
        (valueStatement word make (sub' (.expr true))) :=
    after fun _ => (after fun _ => hs _).optional.map _
  have delete : Deepens (deleteStatement sub) (deleteStatement sub') :=
    after fun _ => after fun _ => after fun _ => (subscript hs).optional.map _
  refine orElse print (orElse (refl _) (orElse (refl _) (orElse (refl _) ?_)))
  refine orElse (refl _) (orElse (value _ _) (orElse (value _ _) ?_))
  exact orElse delete ((hs _).map _)

section Compound

variable (he : Deepens expr expr') (h : Deepens nested nested')

include he h

theorem ifStatement :
    Deepens (ifStatement expr nested) (ifStatement expr' nested') :=
  after fun _ => after fun _ => (condition he).bind fun _ =>
    (body h).bind fun _ =>
    (after fun _ => after fun _ => body h).optional.map _

theorem whileStatement :
    Deepens (whileStatement expr nested) (whileStatement expr' nested') :=
  after fun _ => after fun _ => (condition he).bind fun _ => (body h).map _

theorem doStatement :
    Deepens (doStatement expr nested) (doStatement expr' nested') :=
  after fun _ => (body h).bind fun _ => after fun _ => after fun _ =>
    after fun _ =>
    (condition he).bind fun _ => refl _

omit he in
theorem forInStatement :
    Deepens (forInStatement nested) (forInStatement nested') :=
  after fun _ => after fun _ => after fun _ => after fun _ => after fun _ =>
    after fun _ =>
    after fun _ => after fun _ => after fun _ => after fun _ => after fun _ =>
      (body h).map _

theorem forStatement :
    Deepens (forStatement expr nested) (forStatement expr' nested') :=
  after fun _ => after fun _ => after fun _ => after fun _ =>
    he.optional.bind fun _ =>
    after fun _ => after fun _ => after fun _ => he.optional.bind fun _ =>
      after fun _ => after fun _ => after fun _ => he.optional.bind fun _ =>
        after fun _ => after fun _ => (body h).map _

theorem item : Deepens (item expr nested) (item expr' nested') := by
  have function : Deepens (functionItem nested) (functionItem nested') :=
    after fun _ => after fun _ => after fun _ => after fun _ => after fun _ =>
      after fun _ =>
      after fun _ => after fun _ => after fun _ => after fun _ =>
        (block h).map _
  have special (word : String) (head : Head) :
      Deepens (specialItem word head nested) (specialItem word head nested') :=
    after fun _ => after fun _ => (block h).map _
  have pattern : Deepens (patternItem expr nested)
      (patternItem expr' nested') :=
    he.bind fun _ =>
      (after fun _ => after fun _ => after fun _ => he).optional.bind fun _ =>
      after fun _ => (((block h).map _).orElse (refl _)).map _
  exact orElse function (orElse (special _ _)
    (orElse (special _ _) (orElse ((block h).map _) pattern)))

end Compound

theorem statementBody {sub sub' : Levels}
    (hs : ∀ level, Deepens (sub level) (sub' level))
    (h : Deepens nested nested') :
    Deepens (statementBody sub nested) (statementBody sub' nested') := by
  refine orElse ((block h).map _) (orElse (ifStatement (hs _) h) ?_)
  refine orElse (whileStatement (hs _) h) (orElse (doStatement (hs _) h) ?_)
  refine orElse (forInStatement h) (orElse (forStatement (hs _) h) ?_)
  exact (simpleStatement hs).bind fun _ => refl _

theorem statement (d : Nat) : Deepens (statement d) (statement (d + 1)) := by
  induction d with
  | zero => exact tooDeep _
  | succ d ih => exact statementBody (expression d) ih

end Statements

theorem program (d : Nat) : Deepens (program d) (program (d + 1)) :=
  after fun _ =>
    ((item (expression d _) (statement d)).bind fun _ => refl _).many.bind
      fun _ => refl _

end Deepens

/-- Every higher limit gives the program that a limit gives. -/
theorem parse_of_le {source : String} {p : Program} {low high : Nat}
    (le : low ≤ high) (parsed : Program.parse source low = .ok p) :
    Program.parse source high = .ok p := by
  induction le with
  | refl => exact parsed
  | step _ ih =>
      rename_i d _
      unfold Program.parse at ih ⊢
      dsimp only at ih ⊢
      have met : (program d ⟨source.toList, 0⟩).result ≠ .tooDeep := by
        intro deep
        rw [deep] at ih
        contradiction
      rw [Deepens.program d _ met]
      exact ih

end Awk.Source
