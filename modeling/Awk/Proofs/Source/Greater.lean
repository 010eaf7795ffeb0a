import Awk.Proofs.Source.Outcome

/-!
# Expressions in which `>` does not compare

The arguments of a print statement are expressions of a grammar of their own, in
which `>` redirects.  Where the ordinary grammar finds a term without such a
comparison outside of brackets, the other one finds the same term, and where it
finds a term with one, the other one stops in front of a `>` or in front of a
`?` that it cannot finish.  Both miss the same texts.
-/

namespace Awk.Source

open Awk.Source.Parser (here optional steps stepsWithin)

/-! ## Terms that show a comparison -/

mutual

def Target.showsGreater : Target → Bool
  | .field index => index.showsGreater
  | _ => false

/-- Whether a term compares with `>` outside of parentheses, subscripts and
arguments of calls. -/
def Term.showsGreater : Term → Bool
  | .binary op left right =>
      op == .comparison .gt || left.showsGreater || right.showsGreater
  | .target t => t.showsGreater
  | .getline place file =>
      Target.optionShowsGreater place || Term.optionShowsGreater file
  | .unary _ operand => operand.showsGreater
  | .member key _ => key.showsGreater
  | .ternary condition yes no =>
      condition.showsGreater || yes.showsGreater || no.showsGreater
  | .assign _ _ target value => target.showsGreater || value.showsGreater
  | .preIncrement _ _ operand => operand.showsGreater
  | .postIncrement target _ => target.showsGreater
  | _ => false

def Term.optionShowsGreater : Option Term → Bool
  | none => false
  | some t => t.showsGreater

def Target.optionShowsGreater : Option Target → Bool
  | none => false
  | some t => t.showsGreater

end

theorem Term.showsGreater_binary (op : BinaryOp) (left right : Term) :
    (Term.binary op left right).showsGreater = (op == .comparison .gt ||
      left.showsGreater || right.showsGreater) := by
  rw [Term.showsGreater]

theorem Term.optionShowsGreater_eq_false {o : Option Term}
    (h : ∀ t ∈ o, t.showsGreater = false) :
    Term.optionShowsGreater o = false := by
  cases o with
  | none => rfl
  | some t => exact h t rfl

theorem Target.optionShowsGreater_eq_false {o : Option Target}
    (h : ∀ t ∈ o, t.showsGreater = false) :
    Target.optionShowsGreater o = false := by
  cases o with
  | none => rfl
  | some t => exact h t rfl

def Shows (p : Parser Term) : Prop := Always (fun t => t.showsGreater = true) p

def Hides (p : Parser Term) : Prop := Always (fun t => t.showsGreater = false) p

/-! ## One outcome against the other -/

/-- What is found where `>` compares, and what is found where it does not: the
same; or a term that shows the comparison, and a term that ends where `stops`
holds. -/
inductive Curbed (stops : List Char → Prop) : Found Term → Found Term → Prop
  | same (r : Found Term) : Curbed stops r r
  | shorter {t t' : Term} {next next' : Cursor} (shows : t.showsGreater = true)
      (stop : stops next'.rest) : Curbed stops (.found t next) (.found t' next')
  | tooDeep (r : Found Term) : Curbed stops .tooDeep r

def Curbs (stops : List Char → Prop) (p q : Parser Term) : Prop :=
  ∀ c, Curbed stops (p c).result (q c).result

variable {stops stops' : List Char → Prop} {p q : Parser Term} {sub : Levels}
    {α : Type}

theorem Curbs.refl (p : Parser Term) : Curbs stops p p :=
  fun c => .same (p c).result

theorem Curbed.elim {r r' s s' : Found Term} {f g : Term → Cursor → Found Term}
    (h : Curbed stops r r') (same : ∀ t next, r = .found t next →
      Curbed stops' (f t next) (g t next))
    (shorter : ∀ t t' next next', r = .found t next → t.showsGreater = true →
      stops next'.rest → Curbed stops' (f t next) (g t' next'))
    (missed : r = .missed → Curbed stops' s s') :
    Curbed stops' (r.elim f s) (r'.elim g s') := by
  cases h with
  | same =>
      cases r with
      | found t next => exact same t next rfl
      | missed => exact missed rfl
      | tooDeep => exact .same _
  | shorter shows stop => exact shorter _ _ _ _ rfl shows stop
  | tooDeep => exact .tooDeep _

theorem Curbs.after (first : Parser α) {f g : α → Parser Term}
    (h : ∀ a, Curbs stops (f a) (g a)) :
    Curbs stops (first >>= f) (first >>= g) := by
  intro c
  rw [result_bind, result_bind]
  cases (first c).result with
  | found a next => exact h a next
  | missed => exact .same _
  | tooDeep => exact .same _

theorem Curbs.last (h : Curbs stops p q) {make : Term → Term}
    (shows : ∀ t, t.showsGreater = true → (make t).showsGreater = true) :
    Curbs stops (do let t ← p; return make t)
      (do let t ← q; return make t) := by
  intro c
  rw [result_map, result_map]
  refine (h c).elim (fun _ _ _ => .same _) (fun t _ _ _ _ shown stop => ?_)
    fun _ => .same _
  exact .shorter (shows t shown) stop

theorem Curbs.unless (first : Parser Term) (h : Curbs stops p q) :
    Curbs stops (first <|> p) (first <|> q) := by
  intro c
  rw [result_orElse first p, result_orElse first q]
  cases (first c).result with
  | found t next => exact .same _
  | missed => exact h c
  | tooDeep => exact .same _

theorem Curbed.of_shows {r : Found Term} {left : Term} {c : Cursor}
    (shows : ∀ t next, r = .found t next → t.showsGreater = true)
    (stop : stops c.rest) :
    Curbed stops (r.elim .found (.found left c)) (.found left c) := by
  cases r with
  | found t next => exact .shorter (shows t next rfl) stop
  | missed => exact .same _
  | tooDeep => exact .tooDeep _

theorem Curbed.of_found {r : Found Term} {t' : Term} {c' : Cursor}
    (shows : ∀ t next, r = .found t next → t.showsGreater = true)
    (found : r ≠ .missed) (stop : stops c'.rest) :
    Curbed stops r (.found t' c') := by
  cases r with
  | found t next => exact .shorter (shows t next rfl) stop
  | missed => contradiction
  | tooDeep => exact .tooDeep _

/-! ## Steps -/

structure CurbedSteps (stops : List Char → Prop)
    (step step' : Term → Parser Term) : Prop where
  curbs : ∀ left, Curbs stops (step left) (step' left)
  stopped : ∀ left cs, stops cs → Misses (step' left) cs
  shown : ∀ left, left.showsGreater = true → Shows (step left)

namespace CurbedSteps

variable {step step' : Term → Parser Term} (h : CurbedSteps stops step step')

include h

theorem stepsWithin_shorter (bound bound' : List Char) {left left' : Term}
    {c c' : Cursor} (shows : left.showsGreater = true) (stop : stops c'.rest) :
    Curbed stops (stepsWithin step bound left c).result
      (stepsWithin step' bound' left' c').result := by
  rw [stepsWithin_missed (h.stopped left' c'.rest stop)]
  exact .of_found (Always.stepsWithin h.shown bound shows c)
    (stepsWithin_found step bound left c) stop

theorem stepsWithin_curbs (bound : List Char) (left : Term) :
    Curbs stops (stepsWithin step bound left)
      (stepsWithin step' bound left) := by
  -- Once the two sides differ, the second one stops.
  induction bound generalizing left with
  | nil => exact .refl _
  | cons b bound ih =>
      intro c
      rw [result_stepsWithin, result_stepsWithin]
      split
      · exact .same _
      · refine (h.curbs left c).elim (fun t next _ => ih t next)
          (fun t t' _ _ _ shows stop => ?_) fun _ => .same _
        exact h.stepsWithin_shorter bound bound shows stop

theorem leftGrouped (first : Curbs stops p q) :
    Curbs stops (leftGrouped p step) (leftGrouped q step') := by
  intro c
  unfold Source.leftGrouped
  rw [result_bind, result_bind]
  refine (first c).elim (fun t next _ => h.stepsWithin_curbs next.rest t next)
    (fun t t' _ _ _ shows stop => ?_) fun _ => .same _
  exact h.stepsWithin_shorter _ _ shows stop

end CurbedSteps

/-! ## Levels -/

theorem infixStep_curbed {ops : List (Operator BinaryOp)}
    (other : startOtherwise ops '>' = true) (g : Gap)
    (operand : Curbs (LedBy '>') p q) :
    CurbedSteps (LedBy '>') (infixStep g ops p) (infixStep g ops q) where
  curbs left := by
    refine Curbs.after _ fun _ => Curbs.after _ fun op => Curbs.after _ fun _ =>
      operand.last fun right shows => ?_
    rw [Term.showsGreater_binary, shows, Bool.or_true]
  stopped left cs led := led.misses (by decide) .line fun r =>
    (operator_misses_at other).bind
  shown left shows := by
    refine Always.bind fun _ => .bind fun op => .bind fun _ =>
      .bind fun right => .pure ?_
    rw [Term.showsGreater_binary, shows, Bool.or_true, Bool.true_or]

theorem memberStep_curbed : CurbedSteps (LedBy '>') memberStep memberStep where
  curbs left := .refl _
  stopped left cs led := led.misses (by decide) .line fun r =>
    (keyword_misses_at (by decide) (by decide)).bind
  shown left shows := by
    refine Always.bind fun _ => .bind fun _ => .bind fun _ => .bind fun array =>
      .pure ?_
    rw [Term.showsGreater, shows]

theorem result_infixStep (g : Gap) (ops : List (Operator BinaryOp))
    (operand : Parser Term) (left : Term) (c : Cursor) :
    (infixStep g ops operand left c).result =
      (operator ops (c.drop (Gap.line.length false c.rest))).result.elim
        (fun op next =>
          ((do
            gap g
            let right ← operand
            return .binary op.1 left right : Parser Term) next).result)
        .missed := by
  unfold infixStep
  rw [result_bind]
  exact result_bind _ _ _

def greaterOp : Operator BinaryOp := ⟨">", [], .comparison .gt⟩

/-- Behind the left operand only `>` makes a difference, and where it is left
alone the operand stands in front of it. -/
theorem compareStep_curbs (left : Term) :
    Curbs (LedBy '>') (compareStep sub true left <|> return left)
      (compareStep sub false left <|> return left) := by
  intro c
  have more :=
    operator_append (compareOps false) [greaterOp]
      (c.drop (Gap.line.length false c.rest))
  have step (ops : List (Operator BinaryOp)) :=
    result_infixStep .line ops (concatenation sub) left c
  rw [result_orElse, result_orElse]
  change Curbed _ ((infixStep .line (compareOps false ++
    [greaterOp]) (concatenation sub) left c).result.elim _ _)
    ((infixStep .line (compareOps false) (concatenation sub) left c).result.elim
      _ _)
  rw [step, step, more]
  cases base :
    (operator (compareOps false) (c.drop (Gap.line.length false c.rest))).result
    with
  | found op next => exact .same _
  | tooDeep => exact .same _
  | missed =>
      cases last :
        (operator [greaterOp] (c.drop (Gap.line.length false c.rest))).result
        with
      | missed => exact .same _
      | tooDeep => exact .tooDeep _
      | found op next =>
          obtain ⟨symbol, inside, there, meaning, -⟩ := operator_found last
          cases List.mem_singleton.1 inside
          have led : LedBy '>' c.rest := Operator.scan_front there
          have shows : Shows (do
              blank
              let right ← concatenation sub
              return .binary op.1 left right) := by
            refine Always.bind fun _ => .bind fun right => .pure ?_
            rw [Term.showsGreater_binary, meaning]
            rfl
          exact .of_shows (shows next) led

theorem comparison_curbs :
    Curbs (LedBy '>') (comparison sub true) (comparison sub false) :=
  .after _ fun _ => .after _ fun left => .unless _ (compareStep_curbs left)

theorem disjunction_curbs :
    Curbs (LedBy '>') (disjunction sub true) (disjunction sub false) := by
  have comparison :
      Curbs (LedBy '>') (comparison sub true) (comparison sub false) :=
    comparison_curbs
  have matching : Curbs (LedBy '>') (matching sub true) (matching sub false) :=
    (infixStep_curbed (by decide) .line comparison).leftGrouped comparison
  have membership :
      Curbs (LedBy '>') (membership sub true) (membership sub false) :=
    memberStep_curbed.leftGrouped matching
  have conjunction :
      Curbs (LedBy '>') (conjunction sub true) (conjunction sub false) :=
    (infixStep_curbed (by decide) .lines membership).leftGrouped membership
  exact (infixStep_curbed (by decide) .lines conjunction).leftGrouped
    conjunction

/-! ## Whole expressions -/

def Halts (cs : List Char) : Prop := LedBy '>' cs ∨ LedBy '?' cs

theorem symbol_misses_halted {cs : List Char} (halts : Halts cs) (g : Gap)
    {next : Parser α} :
    Misses (do gap g; symbol ":"; next) cs := by
  rcases halts with led | led
  · exact led.misses (by decide) g fun r => (symbol_misses_at (by decide)).bind
  · exact led.misses (by decide) g fun r => (symbol_misses_at (by decide)).bind

theorem assignStep_curbs
    (h : Curbs Halts (sub (.expr true)) (sub (.expr false))) (left : Term) :
    Curbs Halts (assignStep sub true left) (assignStep sub false left) := by
  refine Curbs.after _ fun _ => Curbs.after _ fun op => Curbs.after _ fun _ =>
    h.last fun value shows => ?_
  rw [Term.showsGreater, shows, Bool.or_true]

theorem assignStep_shows {left : Term} (shows : left.showsGreater = true) :
    Shows (assignStep sub true left) := by
  refine Always.bind fun _ => .bind fun op => .bind fun _ => .bind fun value =>
    .pure ?_
  rw [Term.showsGreater, shows, Bool.true_or]

theorem ternaryStep_shows {left : Term} (shows : left.showsGreater = true) :
    Shows (ternaryStep sub true left) := by
  refine Always.bind fun _ => .bind fun _ => .bind fun _ => .bind fun yes =>
    .bind fun _ => .bind fun _ => .bind fun _ =>
    .bind fun no => .pure ?_
  rw [Term.showsGreater, shows, Bool.true_or, Bool.true_or]

def alternatives (sub : Levels) (greater : Bool) (condition : Term) :
    Parser Term := do
  let yes ← sub (.expr greater)
  newlines
  symbol ":"
  newlines
  let no ← sub (.expr greater)
  return .ternary condition yes no

theorem alternatives_curbed
    (h : Curbs Halts (sub (.expr true)) (sub (.expr false))) (left : Term)
    (c : Cursor) :
    Curbed Halts (alternatives sub true left c).result
      (alternatives sub false left c).result ∨
      (∀ t next, (alternatives sub true left c).result = .found t next →
        t.showsGreater = true) ∧
        (alternatives sub false left c).result = .missed := by
  unfold alternatives
  rw [result_bind, result_bind]
  have first := h c
  generalize (sub (.expr true) c).result = r at first
  generalize (sub (.expr false) c).result = r' at first
  cases first with
  | same =>
      cases r with
      | found yes next =>
          refine .inl (Curbs.after _ (fun _ => .after _ fun _ =>
            .after _ fun _ => h.last fun no shows => ?_) next)
          rw [Term.showsGreater, shows, Bool.or_true]
      | missed => exact .inl (.same _)
      | tooDeep => exact .inl (.same _)
  | @shorter yes _ next next' shows halts =>
      refine .inr ⟨?_, symbol_misses_halted halts .lines next'.offset⟩
      refine (Always.bind fun _ => .bind fun _ => .bind fun _ => .bind fun no =>
        .pure ?_ : Shows _) next
      rw [Term.showsGreater, shows, Bool.or_true, Bool.true_or]
  | tooDeep => exact .inl (.tooDeep _)

theorem ternaryStep_curbs
    (h : Curbs Halts (sub (.expr true)) (sub (.expr false))) (left : Term) :
    Curbs Halts (ternaryStep sub true left <|> return left)
      (ternaryStep sub false left <|> return left) := by
  intro c
  have step (greater : Bool) :
      ((ternaryStep sub greater left <|> return left) c).result =
        ((symbol "?" (c.drop (Gap.line.length false c.rest))).result.elim
          (fun _ next =>
        ((do newlines; alternatives sub greater left : Parser Term)
          next).result) .missed).elim .found (.found left c) := by
    rw [result_orElse, ternaryStep, result_bind, ← result_bind (symbol "?")]
    rfl
  rw [step, step]
  cases mark : (symbol "?" (c.drop (Gap.line.length false c.rest))).result with
  | missed => exact .same _
  | tooDeep => exact .same _
  | found u next =>
      have halts : Halts c.rest := .inr (symbol_found mark)
      rcases alternatives_curbed h left
        (next.drop (Gap.lines.length false next.rest)) with
        curbed | ⟨shows, missed⟩
      · exact curbed.elim (fun _ _ _ => .same _)
          (fun _ _ _ _ _ shows stop => .shorter shows stop) fun _ => .same _
      · simp only [newlines, result_bind, gap, Found.elim] at *
        rw [missed]
        exact .of_shows shows halts

theorem wholeExpr_curbs
    (h : Curbs Halts (sub (.expr true)) (sub (.expr false))) :
    Curbs Halts (wholeExpr sub true) (wholeExpr sub false) := by
  intro c
  unfold wholeExpr
  rw [result_bind, result_bind]
  refine (disjunction_curbs c).elim (fun left next _ => ?_)
    (fun left left' next next' _ shows led => ?_) fun _ => .same _
  · rw [result_orElse (assignStep sub true left),
      result_orElse (assignStep sub false left)]
    refine (assignStep_curbs h left next).elim (fun _ _ _ => .same _)
      (fun _ _ _ _ _ shows stop => .shorter shows stop) fun _ => ?_
    exact ternaryStep_curbs h left next
  · have assign : Misses (assignStep sub false left') next'.rest :=
      led.misses (by decide) .line fun r =>
        (operator_misses_at (by decide)).bind
    have ternary : Misses (ternaryStep sub false left') next'.rest :=
      led.misses (by decide) .line fun r => (symbol_misses_at (by decide)).bind
    have stays :
        ((assignStep sub false left' <|> ternaryStep sub false left' <|>
          return left') next').result = .found left' next' :=
      (assign.orElse.trans ternary.orElse) next'.offset
    have goesOn :
        Shows (assignStep sub true left <|> ternaryStep sub true left <|>
          return left) :=
      (assignStep_shows shows).orElse
        ((ternaryStep_shows shows).orElse (.pure shows))
    rw [stays]
    exact .of_found (goesOn next)
      (orElse_found (orElse_found (pure_found left next))) (.inl led)

theorem expression_curbs (depth : Nat) :
    Curbs Halts (expression depth (.expr true))
      (expression depth (.expr false)) := by
  induction depth with
  | zero => exact .refl _
  | succ depth ih => exact wholeExpr_curbs ih

/-! ## Terms without the comparison -/

def Sheltered (sub : Levels) : Prop := ∀ level, level ≠ .expr true →
    Hides (sub level)

section Sheltered

variable (h : Sheltered sub)

include h

theorem unaryTerm_hides : Hides (unaryTerm sub) := by
  refine Always.bind fun op => .bind fun _ =>
    .andThen (h .unary nofun) fun operand hidden => .pure ?_
  rw [Term.showsGreater, hidden]

theorem preIncrement_hides : Hides (preIncrement sub) := by
  refine Always.bind fun op => .bind fun _ =>
    .andThen (h .field nofun) fun operand hidden => .pure ?_
  rw [Term.showsGreater, hidden]

theorem fieldTarget_hides :
    Always (fun t => t.showsGreater = false) (fieldTarget sub) := by
  have index : Hides (preIncrement sub <|> unaryTerm sub <|> sub .field) :=
    (preIncrement_hides h).orElse ((unaryTerm_hides h).orElse (h .field nofun))
  refine Always.bind fun _ => .bind fun _ => .andThen index fun index hidden =>
    .pure ?_
  rw [Target.showsGreater, hidden]

omit h in
theorem namedTarget_hides :
    Always (fun t => t.showsGreater = false) (namedTarget sub) :=
  .orElse (.bind fun _ => .bind fun _ => .pure rfl)
    (.bind fun _ => .bind fun _ => .pure rfl)

theorem target_hides : Always (fun t => t.showsGreater = false) (target sub) :=
  (fieldTarget_hides h).orElse namedTarget_hides

theorem getlineTerm_hides : Hides (getlineTerm sub) := by
  have file :
      Hides (do blank; symbolNotBefore "<" ['=']; blank; sub .operand) :=
    .bind fun _ => .bind fun _ => .bind fun _ => h .operand nofun
  have place : Always (fun t => t.showsGreater = false)
      (do blank; target sub) := .bind fun _ => target_hides h
  refine Always.bind fun _ => .andThen place.optional fun place placeHides =>
    .andThen file.optional fun file fileHides => .pure ?_
  rw [Term.showsGreater, Target.optionShowsGreater_eq_false placeHides,
    Term.optionShowsGreater_eq_false fileHides, Bool.or_false]

theorem closedPrimary_hides : Hides (closedPrimary sub) := by
  have literal {p : Parser Word} {make : Word →
      Term} (hides : ∀ word, (make word).showsGreater = false) :
      Hides (do let word ← p; return make word) :=
    .bind fun word => .pure (hides word)
  refine (literal fun _ => rfl).orElse <| (literal fun _ => rfl).orElse <|
    (literal fun _ => rfl).orElse <| (literal fun _ => rfl).orElse <|
    (literal fun _ => rfl).orElse <| .orElse ?group <|
    (getlineTerm_hides h).orElse <| .orElse ?builtin <|
    (literal fun _ => rfl).orElse ?function
  case group =>
    exact .bind fun _ => .bind fun _ => .bind fun _ => .bind fun _ =>
      .bind fun _ => .pure rfl
  case builtin => exact .bind fun _ => .bind fun _ => .bind fun _ => .pure rfl
  case function => exact .bind fun _ => .bind fun _ => .pure rfl

theorem field_hides : Hides (field sub) := by
  have read {p : Parser Target}
      (hides : Always (fun t => t.showsGreater = false) p) :
      Hides (do let t ← p; return .target t) := by
    refine hides.andThen fun t hidden => .pure ?_
    rw [Term.showsGreater, hidden]
  exact (read (fieldTarget_hides h)).orElse
    ((closedPrimary_hides h).orElse (read namedTarget_hides))

theorem operand_hides : Hides (operand sub) := by
  have stepped (t : Target) (hidden : t.showsGreater = false) :
      Hides (steppedTarget t) := by
    refine .orElse (.bind fun _ => .bind fun _ => .pure ?_) (.pure ?_)
    · rw [Term.showsGreater, hidden]
    · rw [Term.showsGreater, hidden]
  exact (preIncrement_hides h).orElse
    (.orElse ((target_hides h).andThen stepped) (closedPrimary_hides h))

omit h in
theorem infixStep_hides {ops : List (Operator BinaryOp)}
    (other : ∀ op ∈ ops, (op.meaning == .comparison .gt) = false) (g : Gap)
    (operand : Hides p) (left : Term) (hidden : left.showsGreater = false) :
    Hides (infixStep g ops p left) := by
  have between : Always (fun op => (op.1 == .comparison .gt) = false)
      (operator ops) := by
    intro c op next found
    obtain ⟨symbol, inside, -, meaning, -⟩ := operator_found found
    rw [meaning]
    exact other symbol inside
  refine Always.bind fun _ => between.andThen fun op opHides => .bind fun _ =>
    operand.andThen fun right rightHides => .pure ?_
  rw [Term.showsGreater_binary, opHides, hidden, rightHides]
  rfl

omit h in
theorem leftGrouped_hides {step : Term → Parser Term} (first : Hides p)
    (steps : ∀ left, left.showsGreater = false → Hides (step left)) :
    Hides (leftGrouped p step) :=
  first.andThen fun _ hidden => .steps steps hidden

theorem power_hides : Hides (power sub) := by
  have exponent : Hides (unaryTerm sub <|> sub .power) :=
    (unaryTerm_hides h).orElse (h .power nofun)
  exact (h .operand nofun).andThen fun base hidden =>
    .orElse (infixStep_hides (by decide) .line exponent base hidden)
      (.pure hidden)

theorem unary_hides : Hides (unary sub) :=
  (unaryTerm_hides h).orElse (h .power nofun)

theorem concatenation_hides : Hides (concatenation sub) := by
  have product : Hides (product sub) :=
    leftGrouped_hides (h .unary nofun)
      (infixStep_hides (by decide) .lines (h .unary nofun))
  have sum : Hides (sum sub) :=
    leftGrouped_hides product (infixStep_hides (by decide) .lines product)
  refine leftGrouped_hides sum fun left hidden => .bind fun _ => .bind fun _ =>
    sum.andThen fun right rightHides => .pure ?_
  rw [Term.showsGreater_binary, hidden, rightHides]
  rfl

theorem comparison_hides : Hides (comparison sub false) := by
  refine Always.bind fun start =>
    (concatenation_hides h).andThen fun left hidden =>
      .orElse ?_ (.orElse ?_ (.pure hidden))
  · exact .bind fun _ => .bind fun _ => .bind fun _ => .bind fun _ =>
      .bind fun _ => .bind fun _ => .pure rfl
  · exact infixStep_hides (by decide) .line (concatenation_hides h) left hidden

theorem disjunction_hides : Hides (disjunction sub false) := by
  have matching : Hides (matching sub false) :=
    leftGrouped_hides (comparison_hides h)
      (infixStep_hides (by decide) .line (comparison_hides h))
  have membership : Hides (membership sub false) := by
    refine leftGrouped_hides matching fun left hidden => .bind fun _ =>
      .bind fun _ => .bind fun _ => .bind fun _ => .pure ?_
    rw [Term.showsGreater, hidden]
  have conjunction : Hides (conjunction sub false) :=
    leftGrouped_hides membership (infixStep_hides (by decide) .lines membership)
  exact leftGrouped_hides conjunction
    (infixStep_hides (by decide) .lines conjunction)

theorem wholeExpr_hides : Hides (wholeExpr sub false) := by
  have inner : Hides (sub (.expr false)) := h (.expr false) (by simp)
  refine (disjunction_hides h).andThen fun left hidden =>
    .orElse ?_ (.orElse ?_ (.pure hidden))
  · refine .bind fun _ => .bind fun _ => .bind fun _ =>
      inner.andThen fun value hides => .pure ?_
    rw [Term.showsGreater, hidden, hides, Bool.or_false]
  · refine .bind fun _ => .bind fun _ => .bind fun _ =>
      inner.andThen fun yes yesHides => .bind fun _ => .bind fun _ =>
      .bind fun _ => inner.andThen fun no noHides => .pure ?_
    rw [Term.showsGreater, hidden, yesHides, noHides]
    rfl

end Sheltered

theorem expression_hides (depth : Nat) : Sheltered (expression depth) := by
  induction depth with
  | zero => exact fun level _ c t next found => by contradiction
  | succ depth ih =>
      intro level other
      cases level with
      | expr greater =>
          cases greater with
          | false => exact wholeExpr_hides ih
          | true => contradiction
      | unary => exact unary_hides ih
      | power => exact power_hides ih
      | operand => exact operand_hides ih
      | field => exact field_hides ih

/-! ## The two grammars -/

/-- Where the ordinary grammar finds a term, the grammar of print arguments
finds the same term with the same end if the term shows no `>`; otherwise it
finds a term that shows none and stops in front of the `>`, or in front of the
choice it is in. -/
theorem print_argument_found (depth : Nat) (c next : Cursor) (t : Term)
    (found : (expression depth (.expr true) c).result = .found t next) :
    (t.showsGreater = false → (expression depth (.expr false) c).result =
      .found t next) ∧
      (t.showsGreater = true → ∃ t' next',
        (expression depth (.expr false) c).result = .found t' next' ∧
        t'.showsGreater = false ∧ Halts next'.rest) := by
  have curbed := expression_curbs depth c
  have hides := expression_hides depth (.expr false) (by simp) c
  rw [found] at curbed
  generalize (expression depth (.expr false) c).result = r at curbed hides
  cases curbed with
  | same =>
      refine ⟨fun _ => rfl, fun shows => ?_⟩
      have hidden : t.showsGreater = false := hides t next rfl
      rw [shows] at hidden
      contradiction
  | shorter shows stop =>
      refine ⟨fun hidden => ?_, fun _ => ⟨_, _, rfl, hides _ _ rfl, stop⟩⟩
      rw [shows] at hidden
      contradiction

def Found.toOption {α : Type} : Found α → Option (α × List Char)
  | .found a next => some (a, next.rest)
  | _ => none

/-- A comparison in parentheses is found by both grammars, up to the brace
behind it. -/
theorem parenthesised_comparison_found :
    let c : Cursor := ⟨"(a > b) c\x7d".toList, 6⟩
    ∃ t next, (expression 12 (.expr true) c).result = .found t next ∧
    t.showsGreater = false ∧ (expression 12 (.expr false) c).result =
      .found t next ∧ next.rest = ['\x7d'] := by
  intro c
  have outcome : (expression 12 (.expr true) c).result.toOption.map
      (fun found => (found.1.showsGreater, found.2)) =
      some (false, ['\x7d']) := by decide +kernel
  cases found : (expression 12 (.expr true) c).result with
  | found t next =>
      simp only [found, Found.toOption, Option.map_some, Option.some.injEq,
        Prod.mk.injEq] at outcome
      exact ⟨t, next, rfl, outcome.1,
        (print_argument_found 12 c next t found).1 outcome.1, outcome.2⟩
  | missed => simp [found, Found.toOption] at outcome
  | tooDeep => simp [found, Found.toOption] at outcome

end Awk.Source
