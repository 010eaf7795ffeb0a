import Awk.Proofs.Source.Operand

/-!
# Reading what was written

Reading the text of a phrase gives its tree, unless the phrase is too deep.
Each way to build a phrase has a lemma that says so, given that the parts of the
phrase are read; the induction only puts them together.
-/

namespace Awk.Source

open Awk.Source.Parser (optional many steps token)

variable {sub : Levels} {c : Char} {cs rest : List Char} {d k n : Nat}
    {P : Term → Prop}

theorem whole_of_operand
    (found : ∀ d, Yields (n ≤ d) (operand (expression d)) cs P rest)
    (unsigned : Misses (operator unaryOps) cs) (closed : closes rest = true)
    (d : Nat) :
    Yields (n + 4 ≤ d) (expression d (.expr true)) cs P rest := by
  have still := closes_quiet closed
  refine Yields.nest (.expr true) (fun d => ?_) d
  have unary := unary_of_operand found unsigned (quiet_mono still (by decide)) d
  exact rung_climb (j := 1) (k := 10) (by decide) unary (by omega) still

/-! ## Literals -/

theorem closes_head (h : closes rest = true) :
    ∃ b ∈ ' ' :: closers, ∃ r, rest = b :: r := by
  obtain ⟨c, member, r, rfl | rfl⟩ := trimmed_cases h
  · exact ⟨c, List.mem_cons_of_mem _ member, r, rfl⟩
  · exact ⟨' ', List.mem_cons_self, c :: r, rfl⟩

theorem reads_number (n : Nat) : (Phrase.number n).Reads := by
  intro d rest closed
  obtain ⟨b, member, r, rfl⟩ := closes_head closed
  have ends : ∀ b ∈ ' ' :: closers, Text.isDigit b = false ∧ b ≠ '.' ∧ b ≠ 'e' ∧
      b ≠ 'E' := by decide
  obtain ⟨digit, point, lower, upper⟩ := ends b member
  have filled : Decimal.digits n ≠ [] := Nat.toDigits_ne_nil
  obtain ⟨c, ds, text⟩ := List.exists_cons_of_ne_nil filled
  have first : c.isDigit = true :=
    digits_isDigit n c (text ▸ List.mem_cons_self)
  obtain ⟨-, start, other⟩ := isDigit_ordinary first
  have plus : c ≠ '+' := other _ (by decide)
  have minus : c ≠ '-' := other _ (by decide)
  have literal : ∀ d, Finds (closedPrimary (expression d))
      (Decimal.digits n ++ b :: r) (Means (.number (nearest n))) (b :: r) := by
    intro d
    refine ((finds_numberTerm n digit point lower upper).imp fun t same =>
      ?_).orElse
    rw [same]
    rfl
  rw [Phrase.text, Phrase.expr, Phrase.depth]
  rw [text, List.cons_append] at literal ⊢
  refine whole_of_operand (n := 0) (fun d => ?_)
    (unaryOps_misses_at plus minus (other _ (by decide))) closed d
  refine Finds.fitting (Nat.zero_le d) ?_
  exact (operand_of_primary plus minus
    (target_misses_at (other _ (by decide)) start)).finds (literal d)

theorem reads_string (s : String) : (Phrase.string s).Reads := by
  intro d rest closed
  have text : (Phrase.string s).text ++ rest = '"' ::
      (escaped s.toList ++ '"' :: rest) := by
    rw [Phrase.text]
    simp only [List.cons_append, List.append_assoc, List.nil_append]
  rw [text, Phrase.expr, Phrase.depth]
  refine whole_of_operand (n := 0) (fun d => ?_)
    (unaryOps_misses_at (by decide) (by decide) (by decide)) closed d
  refine Finds.fitting (Nat.zero_le d) ?_
  refine (operand_of_primary (by decide) (by decide)
    (target_misses_at (by decide) (by decide))).finds ?_
  exact (number_misses_at (by decide) (by decide)).orElse.finds
    (finds_stringTerm s).orElse

/-! ## Targets -/

section Targets

variable {s : Spot} (h : s.Reads)

theorem Spot.text_other (s : Spot) : ∃ c r, s.text = c :: r ∧ c ≠ '+' ∧
    c ≠ '-' ∧ c ≠ '!' := by
  have outside : ∀ b ∈ ['+', '-', '!'], b ≠ '$' ∧ isNameStart b = false := by
    decide
  obtain ⟨c, r, text, start⟩ := s.text_start
  have other : ∀ b ∈ ['+', '-', '!'], c ≠ b := by
    rintro b member rfl
    obtain ⟨dollar, name⟩ := outside c member
    rcases start with start | start
    · exact dollar start
    · rw [name] at start
      contradiction
  exact ⟨c, r, text, other _ (by decide), other _ (by decide),
    other _ (by decide)⟩

theorem Spot.unaryOps_misses (s : Spot) (rest : List Char) :
    Misses (operator unaryOps) (s.text ++ rest) := by
  obtain ⟨c, r, text, plus, minus, bang⟩ := s.text_other
  rw [text]
  exact unaryOps_misses_at plus minus bang

theorem Spot.stepOps_misses (s : Spot) (rest : List Char) :
    Misses (operator stepOps) (s.text ++ rest) := by
  obtain ⟨c, r, text, plus, minus, -⟩ := s.text_other
  rw [text]
  exact stepOps_misses_at plus minus

theorem closes_stepOps (h : closes rest = true) :
    Misses (operator stepOps) (trimmed rest) := by
  have others : ∀ c ∈ closers, c ≠ '+' ∧ c ≠ '-' := by decide
  unfold closes at h
  cases text : trimmed rest with
  | nil =>
      rw [text] at h
      contradiction
  | cons c r =>
      rw [text] at h
      obtain ⟨plus, minus⟩ := others c (List.contains_iff_mem.1 h)
      exact stepOps_misses_at plus minus

theorem finds_stepOps (up : Bool) (cs : List Char) :
    Finds (operator stepOps) (stepText up ++ cs) (fun op => op.1 = up) cs := by
  intro offset
  refine ⟨(up, ⟨if up then "++" else "--", offset⟩), offset + 2, ?_, rfl⟩
  cases up <;> cases cs <;> rfl

include h

theorem Spot.Reads.operand (d : Nat) (bound : bounded rest = true)
    (solid : quiet 0 rest = true)
    (unstepped : Misses (operator stepOps) (trimmed rest)) :
    Yields (s.depth ≤ d) (operand (expression d)) (s.text ++ rest)
      (Means (.read s.place)) rest := by
  refine (s.stepOps_misses rest).bind.orElse.yields (Yields.orElse ?_)
  refine (h.target d bound).andThen fun _ t means => ?_
  refine Misses.orElse ?_ |>.finds (finds_pure means.read)
  exact (quiet_finds .line solid).bind_misses fun _ _ => unstepped.bind

theorem reads_read : (Phrase.read s).Reads := by
  intro d rest closed
  have solid : quiet 0 rest = true :=
    quiet_mono (closes_quiet closed) (by decide)
  rw [Phrase.text, Phrase.expr, Phrase.depth]
  refine whole_of_operand (fun d => ?_) (s.unaryOps_misses rest) closed d
  exact h.operand d (closes_bounded closed) solid (closes_stepOps closed)

theorem reads_postIncrement (up : Bool) :
    (Phrase.increment s up true).Reads := by
  intro d rest closed
  have bound : bounded (stepText up ++ rest) = true := by cases up <;> rfl
  have solid : quiet 0 (stepText up ++ rest) = true := by cases up <;> rfl
  have same : trimmed (stepText up ++ rest) = stepText up ++ rest := by
    cases up <;> rfl
  rw [Phrase.text, Phrase.expr, Phrase.depth, List.append_assoc]
  refine whole_of_operand (fun d => ?_) (s.unaryOps_misses _) closed d
  refine (s.stepOps_misses _).bind.orElse.yields (Yields.orElse ?_)
  refine (h.target d bound).andThen fun _ t means => Finds.orElse ?_
  refine (same ▸ quiet_finds .line solid).bind fun _ _ => ?_
  refine (finds_stepOps up rest).bind ?_
  rintro ⟨_, word⟩ rfl
  exact finds_pure means.postIncrement

theorem reads_preIncrement (up : Bool) :
    (Phrase.increment s up false).Reads := by
  intro d rest closed
  obtain ⟨c, r, text, opens⟩ := s.text_opens
  have gap : Finds blank (s.text ++ rest) (fun _ => True) (s.text ++ rest) := by
    rw [text]
    exact finds_gap .line (isSolid_of_opensExpr opens)
  have missed : Misses (operator unaryOps) (stepText up ++
      (s.text ++ rest)) := by
    intro offset
    cases up <;> rfl
  rw [Phrase.text, Phrase.expr, Phrase.depth, List.append_assoc]
  refine whole_of_operand (fun d => Yields.orElse ?_) missed closed d
  refine (finds_stepOps up _).yields ?_
  rintro ⟨_, word⟩ rfl
  refine gap.yields fun _ _ => ?_
  exact (h.field d (closes_bounded closed)).map fun t means =>
    means.preIncrement

end Targets

/-! ## Operators -/

def opRung : BinaryOp → Nat
  | .arithmetic .pow => 0
  | .arithmetic .add | .arithmetic .sub => 2
  | .arithmetic _ => 1
  | .concat => 3
  | .comparison _ => 4
  | .matching _ => 5
  | .and => 7
  | .or => 8

def opTable : BinaryOp → List (Operator BinaryOp)
  | .arithmetic .pow => powerOps
  | .arithmetic .add | .arithmetic .sub => addOps
  | .arithmetic _ => mulOps
  | .concat => []
  | .comparison _ => compareOps true
  | .matching _ => matchOps
  | .and => [⟨"&&", [], .and⟩]
  | .or => [⟨"||", [], .or⟩]

theorem between_quiet (op : BinaryOp) (cs : List Char) :
    quiet (opRung op) (between op ++ '(' :: cs) = true := by
  cases op with
  | arithmetic op => cases op <;> rfl
  | comparison op => cases op <;> rfl
  | matching negated => cases negated <;> rfl
  | concat => rfl
  | and => rfl
  | or => rfl

theorem finds_between (op : BinaryOp) (written : op ≠ .concat)
    (cs : List Char) :
    Finds (operator (opTable op)) (trimmed (between op ++ '(' :: cs))
      (fun found => found.1 = op) (' ' :: '(' :: cs) := by
  cases op with
  | arithmetic op => cases op <;> exact fun offset => ⟨_, _, rfl, rfl⟩
  | comparison op => cases op <;> exact fun offset => ⟨_, _, rfl, rfl⟩
  | matching negated => cases negated <;> exact fun offset => ⟨_, _, rfl, rfl⟩
  | concat => contradiction
  | and => exact fun offset => ⟨_, _, rfl, rfl⟩
  | or => exact fun offset => ⟨_, _, rfl, rfl⟩

section Operators

variable {fits fits' : Prop} {e₁ e₂ : Expr} {mid : List Char}

theorem infixStep_yields (op : BinaryOp) {g : Gap} {operand : Parser Term}
    {left : Term} (written : op ≠ .concat) (means : Means e₁ left)
    (right : Yields fits operand ('(' :: mid) (Means e₂) rest) :
    Yields fits (infixStep g (opTable op) operand left)
      (between op ++ '(' :: mid) (Means (.binary op e₁ e₂)) rest := by
  refine (quiet_finds .line (between_quiet op mid)).yields fun _ _ => ?_
  refine (finds_between op written mid).yields ?_
  rintro ⟨_, word⟩ rfl
  refine (finds_gap_space g rfl).yields fun _ _ => ?_
  exact right.map fun t known => means.binary known

theorem concatStep_yields {left : Term} (means : Means e₁ left)
    (right : Yields fits (sum sub) ('(' :: mid) (Means e₂) rest) :
    Yields fits (concatStep sub left) (' ' :: '(' :: mid)
      (Means (.binary .concat e₁ e₂)) rest := by
  refine (finds_gap_space .line rfl).yields fun _ _ => ?_
  have allowed : Finds (Parser.require fun rest => !startsOperator rest)
      ('(' :: mid) (fun _ => True) ('(' :: mid) :=
    fun offset => ⟨(), offset, rfl, trivial⟩
  refine allowed.yields fun _ _ => ?_
  exact right.map fun t known => means.binary known

/-- An operator between two operands of a level that groups to the left. -/
theorem leftGrouped_between (op : BinaryOp) {g : Gap} {p : Parser Term}
    (written : op ≠ .concat)
    (first : Yields fits p cs (Means e₁) (between op ++ '(' :: mid))
    (second : Yields fits' p ('(' :: mid) (Means e₂) rest)
    (stop : ∀ left, Misses (infixStep g (opTable op) p left) rest) :
    Yields (fits ∧ fits') (leftGrouped p (infixStep g (opTable op) p)) cs
      (Means (.binary op e₁ e₂)) rest := by
  obtain ⟨r, spaced⟩ : ∃ r, between op = ' ' :: r := by
    cases op <;> exact ⟨_, rfl⟩
  have step : ∀ left, Means e₁ left →
      Yields fits' (infixStep g (opTable op) p left) (between op ++ '(' :: mid)
        (Means (.binary op e₁ e₂)) rest :=
    fun left means => infixStep_yields op written means second
  rw [spaced, List.cons_append] at first step
  exact leftGrouped_once first step fun _ => stop

/-- The level of an operator takes it, and operands that stand for themselves on
the level below. -/
theorem rung_between (op : BinaryOp) (level : opRung op = k)
    (low : op ≠ .arithmetic .pow)
    (first : Yields fits (rung d k) cs (Means e₁) (between op ++ '(' :: mid))
    (second : Yields fits' (rung d k) ('(' :: mid) (Means e₂) rest)
    (deep : fits → 3 ≤ d) (still : quiet (k + 1) rest = true) :
    Yields (fits ∧ fits') (rung d (k + 1)) cs (Means (.binary op e₁ e₂))
      rest := by
  have solid : quiet 0 rest = true := quiet_mono still (by omega)
  have stop : goesOn k (trimmed rest) = false := quiet_goesOn still (by omega)
  cases op with
  | arithmetic op =>
      cases op with
      | add =>
          cases level
          exact leftGrouped_between (.arithmetic .add) nofun first second
            fun _ => infixStep_misses (g := .lines) solid stop
      | sub =>
          cases level
          exact leftGrouped_between (.arithmetic .sub) nofun first second
            fun _ => infixStep_misses (g := .lines) solid stop
      | mul =>
          cases level
          exact leftGrouped_between (.arithmetic .mul) nofun first second
            fun _ => infixStep_misses (g := .lines) solid stop
      | div =>
          cases level
          exact leftGrouped_between (.arithmetic .div) nofun first second
            fun _ => infixStep_misses (g := .lines) solid stop
      | mod =>
          cases level
          exact leftGrouped_between (.arithmetic .mod) nofun first second
            fun _ => infixStep_misses (g := .lines) solid stop
      | pow => contradiction
  | concat =>
      cases level
      exact leftGrouped_once first (fun a means =>
        concatStep_yields means second) fun yes _ =>
        concatStep_misses (deep yes) solid stop
  | comparison op =>
      cases level
      refine finds_here.yields fun start _ => first.bind fun _ left means => ?_
      have unpiped :
          Misses (operator [(⟨"|", ['|'], ()⟩ : Operator Unit)])
            (trimmed (between (.comparison op) ++ '(' :: mid)) := by
        cases op <;> exact fun offset => rfl
      have missed :
          Misses (pipeStep (expression d) start) (between (.comparison op) ++
            '(' :: mid) :=
        (quiet_finds .line (between_quiet _ mid)).bind_misses fun _ _ =>
          unpiped.bind.bind
      refine missed.orElse.yields (Yields.orElse ?_)
      exact infixStep_yields (.comparison op) (g := .line) nofun means second
  | matching negated =>
      cases level
      exact leftGrouped_between (.matching negated) nofun first second fun _ =>
        infixStep_misses (g := .line) solid stop
  | and =>
      cases level
      exact leftGrouped_between .and nofun first second fun _ =>
        infixStep_misses (g := .lines) solid stop
  | or =>
      cases level
      exact leftGrouped_between .or nofun first second fun _ =>
        infixStep_misses (g := .lines) solid stop

theorem power_between
    (first : Yields fits (expression d .operand) cs (Means e₁)
      (between (.arithmetic .pow) ++ '(' :: mid))
    (second : Yields fits' (expression d .power) ('(' :: mid) (Means e₂) rest) :
    Yields (fits ∧ fits') (power (expression d)) cs
      (Means (.binary (.arithmetic .pow) e₁ e₂)) rest := by
  refine first.bind fun _ base means => Yields.orElse ?_
  refine (quiet_finds .line (between_quiet _ mid)).yields fun _ _ => ?_
  refine (finds_between (.arithmetic .pow) nofun mid).yields ?_
  rintro ⟨_, word⟩ rfl
  refine (finds_gap_space .line rfl).yields fun _ _ => ?_
  have exponent :
      Yields fits' (unaryTerm (expression d) <|> expression d .power)
        ('(' :: mid) (Means e₂) rest :=
    (unaryOps_misses_at (by decide) (by decide) (by decide)).bind.orElse.yields
      second
  exact exponent.map fun t known => means.binary known

theorem unary_power {left right : Phrase} (hleft : left.Reads)
    (hright : right.Reads) (still : quiet 1 rest = true) (d : Nat) :
    Yields (max (left.depth + 3) (right.depth + 4) ≤ d) (expression d .unary)
      ('(' :: (left.text ++ ')' :: (between (.arithmetic .pow) ++ '(' ::
        (right.text ++ ')' :: rest))))
      (Means (.binary (.arithmetic .pow) left.expr right.expr)) rest := by
  have exponent := Yields.nest .power fun d =>
    power_alone (hright.operand d rest) still
  have power : ∀ d, Yields (max (left.depth + 1) (right.depth + 2) ≤ d)
      (power (expression d)) ('(' :: (left.text ++ ')' ::
        (between (.arithmetic .pow) ++ '(' :: (right.text ++ ')' :: rest))))
      (Means (.binary (.arithmetic .pow) left.expr right.expr)) rest :=
    fun d => (power_between (hleft.operand d _) (exponent d)).iff
      Nat.max_le.symm
  have unsigned :
      Misses (operator unaryOps) ('(' ::
        (left.text ++ ')' :: (between (.arithmetic .pow) ++ '(' ::
          (right.text ++ ')' :: rest)))) :=
    unaryOps_misses_at (by decide) (by decide) (by decide)
  have unary :=
    Yields.nest .unary (fun d => unsigned.bind.orElse.yields
      (Yields.nest .power power d)) d
  exact unary.iff (by omega)

theorem reads_binary (op : BinaryOp) {left right : Phrase} (hleft : left.Reads)
    (hright : right.Reads) :
    (Phrase.binary op left right).Reads := by
  intro d rest closed
  have still := closes_quiet closed
  have text : (Phrase.binary op left right).text ++ rest = '(' ::
      (left.text ++ ')' :: (between op ++ '(' ::
        (right.text ++ ')' :: rest))) := by
    rw [Phrase.text]
    simp only [List.cons_append, List.append_assoc, List.nil_append]
  rw [text, Phrase.expr]
  by_cases low : op = .arithmetic .pow
  · subst low
    have depth : (Phrase.binary (.arithmetic .pow) left right).depth =
        max (left.depth + 3) (right.depth + 4) + 1 := by
      rw [Phrase.depth_power]
      omega
    rw [depth]
    refine Yields.nest (.expr true) (fun d => ?_) d
    have unary := unary_power hleft hright (quiet_mono still (by decide)) d
    exact rung_climb (j := 1) (k := 10) (by decide) unary (by omega) still
  · have depth : (Phrase.binary op left right).depth =
        max (left.depth + 3) (right.depth + 3) + 1 := by
      rw [Phrase.depth_binary low]
      omega
    have level : 1 ≤ opRung op ∧ opRung op < 10 := by
      unfold opRung
      split
      · contradiction
      all_goals decide
    rw [depth]
    refine Yields.nest (.expr true) (fun d => ?_) d
    have first :=
      hleft.rung d _ level.1 (between_quiet op (right.text ++ ')' :: rest))
    have second := hright.rung d rest level.1 (quiet_mono still (by omega))
    have found :=
      rung_between op rfl low first second (by omega) (quiet_mono still level.2)
    exact rung_climb (k := 10) level.2 (found.iff Nat.max_le.symm)
      (by omega) still

theorem reads_unary (op : UnaryOp) {operand : Phrase} (h : operand.Reads) :
    (Phrase.unary op operand).Reads := by
  intro d rest closed
  have still := closes_quiet closed
  have text : (Phrase.unary op operand).text ++ rest = op.spelling.toList ++
      '(' :: (operand.text ++ ')' :: rest) := by
    rw [Phrase.text]
    simp only [List.cons_append, List.append_assoc, List.nil_append]
  have sign : Finds (operator unaryOps) (op.spelling.toList ++ '(' ::
      (operand.text ++ ')' :: rest)) (fun found => found.1 = op)
      ('(' :: (operand.text ++ ')' :: rest)) := by
    cases op <;> exact fun offset => ⟨_, _, rfl, rfl⟩
  rw [text, Phrase.expr, Phrase.depth]
  refine Yields.nest (.expr true) (fun d => ?_) d
  have unary : Yields (operand.depth + 3 + 1 ≤ d) (expression d .unary)
      (op.spelling.toList ++ '(' :: (operand.text ++ ')' :: rest))
      (Means (.unary op operand.expr)) rest := by
    refine Yields.nest .unary (fun d => Yields.orElse (sign.yields ?_)) d
    rintro ⟨_, word⟩ rfl
    refine (finds_gap .line rfl).yields fun _ _ => ?_
    exact (h.rung (k := 1) d rest (by decide)
      (quiet_mono still (by decide))).map fun t means => means.unary
  exact rung_climb (j := 1) (k := 10) (by decide) unary (by omega) still

theorem reads_ternary {condition yes no : Phrase} (hcondition : condition.Reads)
    (hyes : yes.Reads) (hno : no.Reads) :
    (Phrase.ternary condition yes no).Reads := by
  intro d rest closed
  have text : (Phrase.ternary condition yes no).text ++ rest = '(' ::
      (condition.text ++ ')' :: ' ' :: '?' :: ' ' :: '(' ::
        (yes.text ++ ')' :: ' ' :: ':' :: ' ' :: '(' ::
          (no.text ++ ')' :: rest))) := by
    rw [Phrase.text]
    simp only [List.cons_append, List.append_assoc, List.nil_append]
  have depth : (Phrase.ternary condition yes no).depth =
      max (condition.depth + 3) (max (yes.depth + 4) (no.depth + 4)) + 1 := by
    rw [Phrase.depth]
    omega
  rw [text, Phrase.expr, depth]
  refine Yields.nest (.expr true) (fun d => ?_) d
  have test :=
    hcondition.rung (k := 9) d (' ' :: '?' :: ' ' :: '(' ::
      (yes.text ++ ')' :: ' ' :: ':' :: ' ' :: '(' :: (no.text ++ ')' :: rest)))
      (by decide) rfl
  refine Yields.iff (test.bind fun _ a means₁ => ?_) Nat.max_le.symm
  have unassigned :
      Misses (operator assignOps) ('?' :: ' ' :: '(' ::
        (yes.text ++ ')' :: ' ' :: ':' :: ' ' :: '(' ::
          (no.text ++ ')' :: rest))) := fun offset => rfl
  have missed : Misses (assignStep (expression d) true a) _ :=
    (finds_gap_space .line rfl).bind_misses fun _ _ => unassigned.bind
  refine missed.orElse.yields (Yields.orElse ?_)
  refine (finds_gap_space .line rfl).yields fun _ _ => ?_
  refine (finds_symbol "?" _).yields fun _ _ => ?_
  refine (finds_gap_space .lines rfl).yields fun _ _ => ?_
  refine Yields.iff ((hyes.enclosed d _ rfl).bind fun _ b means₂ => ?_)
    Nat.max_le.symm
  refine (finds_gap_space .lines rfl).yields fun _ _ => ?_
  refine (finds_symbol ":" _).yields fun _ _ => ?_
  refine (finds_gap_space .lines rfl).yields fun _ _ => ?_
  exact (hno.enclosed d rest closed).map fun t means₃ =>
    means₁.ternary means₂ means₃

theorem reads_member {key : Phrase} (h : key.Reads) (array : FreeName) :
    (Phrase.member key array).Reads := by
  intro d rest closed
  have still := closes_quiet closed
  have text : (Phrase.member key array).text ++ rest = '(' ::
      (key.text ++ ')' :: ' ' :: 'i' :: 'n' :: ' ' ::
        (array.val.toList ++ rest)) := by
    rw [Phrase.text]
    simp only [List.cons_append, List.append_assoc]
  rw [text, Phrase.expr, Phrase.depth]
  obtain ⟨b, r, rfl, ends, -⟩ := bounded_head (closes_bounded closed)
  obtain ⟨c, t, name, start⟩ := array.start
  have word : Finds (keyword "in") ('i' :: 'n' :: ' ' ::
      (array.val.toList ++ b :: r)) (fun _ => True)
      (' ' :: (array.val.toList ++ b :: r)) :=
    fun offset => ⟨_, _, rfl, trivial⟩
  have gap : Finds blank (' ' :: (array.val.toList ++ b :: r)) (fun _ => True)
      (array.val.toList ++ b :: r) := by
    rw [name]
    exact finds_gap_space .line (isSolid_of_opensExpr
      (opensExpr_of_nameStart start))
  have step : ∀ t, Means key.expr t →
      Finds (memberStep t) (' ' :: 'i' :: 'n' :: ' ' ::
        (array.val.toList ++ b :: r))
        (Means (.member (keyParts key.expr) array)) (b :: r) := by
    intro t means
    refine (finds_gap_space .line rfl).bind fun _ _ => word.bind fun _ _ =>
      gap.bind fun _ _ => ?_
    exact (finds_name array.property ends).map fun w same => same ▸ means.member
  refine Yields.nest (.expr true) (fun d => ?_) d
  have left :=
    h.rung (k := 6) d (' ' :: 'i' :: 'n' :: ' ' :: (array.val.toList ++ b :: r))
      (by decide) rfl
  have found : Yields (key.depth + 3 ≤ d ∧
      True) (rung d 7) ('(' :: (key.text ++ ')' :: ' ' :: 'i' :: 'n' :: ' ' ::
        (array.val.toList ++ b :: r)))
      (Means (.member (keyParts key.expr) array)) (b :: r) :=
    leftGrouped_once left (fun t means => (step t means).fitting trivial)
      fun _ _ =>
      memberStep_misses (quiet_mono still (by decide))
        (quiet_goesOn still (by decide))
  exact rung_climb (j := 7) (k := 10) (by decide)
    (found.iff (iff_of_eq (and_true _))) (by omega) still

theorem assignment_facts (op : Option Arithmetic) (cs : List Char) :
    let rest := ' ' :: ((assignmentSpelling op).toList ++ ' ' :: '(' :: cs)
    bounded rest = true ∧ quiet 9 rest = true ∧
    Misses (operator stepOps) (trimmed rest) ∧
    Finds (operator assignOps) (trimmed rest) (fun found => found.1 = op)
      (' ' :: '(' :: cs) := by
  rcases op with _ | op
  · exact ⟨rfl, rfl, fun _ => rfl, fun _ => ⟨_, _, rfl, rfl⟩⟩
  · cases op <;> exact ⟨rfl, rfl, fun _ => rfl, fun _ => ⟨_, _, rfl, rfl⟩⟩

theorem reads_assign (op : Option Arithmetic) {s : Spot} {value : Phrase}
    (hs : s.Reads) (hvalue : value.Reads) :
    (Phrase.assign op s value).Reads := by
  intro d rest closed
  have text : (Phrase.assign op s value).text ++ rest = s.text ++ ' ' ::
      ((assignmentSpelling op).toList ++ ' ' :: '(' ::
        (value.text ++ ')' :: rest)) := by
    rw [Phrase.text]
    simp only [List.cons_append, List.append_assoc, List.nil_append]
  have depth : (Phrase.assign op s value).depth =
      max (s.depth + 3) (value.depth + 4) + 1 := by
    rw [Phrase.depth]
    omega
  obtain ⟨bound, still, unstepped, sign⟩ :=
    assignment_facts op (value.text ++ ')' :: rest)
  rw [text, Phrase.expr, depth]
  refine Yields.nest (.expr true) (fun d => ?_) d
  have operand :=
    fun d => hs.operand d bound (quiet_mono still (by decide)) unstepped
  have unary :=
    unary_of_operand operand (s.unaryOps_misses _)
      (quiet_mono still (by decide)) d
  have left := rung_climb (j := 1) (k := 9) (by decide) unary (by omega) still
  refine Yields.iff (left.bind fun _ a means => Yields.orElse ?_)
    Nat.max_le.symm
  refine (quiet_finds .line still).yields fun _ _ => sign.yields ?_
  rintro ⟨_, word⟩ rfl
  refine (finds_gap_space .lines rfl).yields fun _ _ => ?_
  exact (hvalue.enclosed d rest closed).map fun t known => means.assign known

end Operators

/-! ## Calls, tuples and `getline` -/

theorem arguments_yields {args : List Phrase} (hargs : ∀ x ∈ args, x.Reads)
    (d : Nat) (rest : List Char) :
    Yields (max (Phrase.depthAll args) 4 ≤ d) (arguments (expression d))
      ('(' :: (Phrase.listText args ++ ')' :: rest))
      (fun ts => Term.checkAll ts = .ok (Phrase.exprs args)) rest := by
  refine (finds_symbol "(" (Phrase.listText args ++ ')' :: rest)).yields
    fun _ _ => ?_
  cases args with
  | nil =>
      have empty : Yields (4 ≤ d) (optional (exprList (expression d)))
          (')' :: rest) (· = none) (')' :: rest) := by
        constructor
        · intro deep
          have missed : Misses (exprList (expression d)) (')' :: rest) :=
            (expr_misses_at (by decide) deep).bind
          exact missed.optional
        · intro shallow
          have sunk : Sinks (exprList (expression d)) (')' :: rest) :=
            (expr_sinks_at (by decide) (by omega)).bind
          exact sunk.optional
      rw [Phrase.listText, List.nil_append, Phrase.exprs, Phrase.depthAll,
        Nat.zero_max]
      refine (finds_gap .lines rfl).yields fun _ _ =>
        empty.andThen fun _ args none => ?_
      refine (finds_gap .lines rfl).bind fun _ _ =>
        (finds_symbol ")" _).bind fun _ _ => finds_pure ?_
      rw [none]
      rfl
  | cons x xs =>
      obtain ⟨hx, hxs⟩ := List.forall_mem_cons.1 hargs
      have list := exprList_yields (c := ')') hxs (by decide) hx d rest
      have deep : max (Phrase.depthAll (x :: xs)) 4 =
          Phrase.depthAll (x :: xs) := by
        rw [Phrase.depthAll]
        omega
      rw [Phrase.listText, deep]
      simp only [List.cons_append, List.append_assoc]
      refine (finds_gap .lines rfl).yields fun _ _ => list.optional.andThen ?_
      rintro - _ ⟨ts, rfl, checked⟩
      refine (finds_gap .lines rfl).bind fun _ _ =>
        (finds_symbol ")" _).bind fun _ _ => finds_pure checked

theorem Means.call {name : String} {ts : List Term} {es : List Expr}
    (checked : Term.checkAll ts = .ok es) :
    Means (.call name es) (.call name ts) := by
  simp only [Means, Term.check, checked]
  rfl

theorem called_yields (name : FunctionName) {args : List Phrase}
    (hargs : ∀ x ∈ args, x.Reads) (d : Nat) (rest : List Char) :
    let text := name.val.toList ++ '(' :: (Phrase.listText args ++ ')' :: rest)
    Misses (namedTarget (expression d)) text ∧
    Yields (max (Phrase.depthAll args) 4 ≤ d) (closedPrimary (expression d))
      text (Means (.call name (Phrase.exprs args))) rest := by
  intro text
  have list := arguments_yields hargs d rest
  have ends : isBreak '(' = true := by decide
  rcases name.property with free | builtin
  · have unindexed :
        Misses (subscript (expression d)) ('(' ::
          (Phrase.listText args ++ ')' :: rest)) :=
      (finds_gap .line rfl).bind_misses fun _ _ => (symbol_misses_at rfl).bind
    have called :
        Misses (Parser.requireSilently fun rest => rest.head? != some '(')
          ('(' :: (Phrase.listText args ++ ')' :: rest)) := fun offset => rfl
    constructor
    · refine ((finds_name free ends).bind_misses fun _ _ =>
        unindexed.bind).orElse.misses ?_
      exact (finds_name free ends).bind_misses fun _ _ => called.bind
    · refine (FreeName.closedPrimary_eq ⟨name.val, free⟩ ends).yields ?_
      refine (finds_name free ends).yields fun w same => ?_
      exact list.map fun ts checked => same ▸ Means.call checked
  · have inside := builtin_inside builtin
    have taken : (keywords ++ builtinNames).contains name.val = true := by
      rw [List.contains_iff_mem]
      exact List.mem_append_right _ builtin
    have missed : Misses Source.name text := name_misses_word inside taken ends
    have plain : ["getline"].contains name.val = false := by
      have all : ∀ s ∈ builtinNames, ["getline"].contains s = false := by decide
      exact all name builtin
    obtain ⟨c, r, word, start⟩ := name.start
    have first : Agree (closedPrimary (expression d))
        (getlineTerm (expression d) <|> builtinCall (expression d) <|>
          bareBuiltin <|> functionCall (expression d)) text := by
      simp only [text]
      rw [word]
      exact closedPrimary_of_start start
    constructor
    · exact missed.bind.orElse.misses missed.bind
    · refine first.yields ?_
      refine (token_misses (scanWord_of_other inside ends
        plain)).bind.orElse.yields (Yields.orElse ?_)
      refine (finds_builtinName builtin ends).yields fun w same => ?_
      refine (finds_gap .line rfl).yields fun _ _ => ?_
      exact list.map fun ts checked => same ▸ Means.call checked

theorem reads_call (name : FunctionName) {args : List Phrase}
    (hargs : ∀ x ∈ args, x.Reads) : (Phrase.call name args).Reads := by
  intro d rest closed
  have text : (Phrase.call name args).text ++ rest = name.val.toList ++ '(' ::
      (Phrase.listText args ++ ')' :: rest) := by
    rw [Phrase.text]
    simp only [List.cons_append, List.append_assoc, List.nil_append]
  obtain ⟨c, r, word, start⟩ := name.start
  have outside : ∀ b ∈ ['+', '-', '!', '$'], isNameStart b = false := by decide
  have other : ∀ b ∈ ['+', '-', '!', '$'], c ≠ b := by
    rintro b member rfl
    rw [outside c member] at start
    contradiction
  have parts := fun d => called_yields name hargs d rest
  rw [text, Phrase.expr, Phrase.depth]
  rw [word, List.cons_append] at parts ⊢
  have unsigned :
      Misses (operator unaryOps) (c :: (r ++ '(' ::
        (Phrase.listText args ++ ')' :: rest))) :=
    unaryOps_misses_at (other _ (by decide)) (other _ (by decide))
      (other _ (by decide))
  refine whole_of_operand (fun d => ?_) unsigned closed d
  obtain ⟨unnamed, call⟩ := parts d
  have noTarget :
      Misses (target (expression d)) (c ::
        (r ++ '(' :: (Phrase.listText args ++ ')' :: rest))) :=
    (fieldTarget_misses_at (other _ (by decide))).orElse.misses unnamed
  exact (operand_of_primary (other _ (by decide))
    (other _ (by decide)) noTarget).yields call

theorem reads_tuple {first second : Phrase} {more : List Phrase}
    (hfirst : first.Reads) (hsecond : second.Reads)
    (hmore : ∀ x ∈ more, x.Reads) : (Phrase.tuple first second more).Reads := by
  intro d rest closed
  have text : (Phrase.tuple first second more).text ++ rest = '(' :: '(' ::
      (first.text ++ ')' :: (Phrase.moreText (second :: more) ++ ')' ::
        rest)) := by
    rw [Phrase.text, Phrase.moreText]
    simp only [List.cons_append, List.append_assoc, List.nil_append]
  have depth : (Phrase.tuple first second more).depth =
      Phrase.depthAll (first :: second :: more) + 4 := by
    rw [Phrase.depth, Phrase.depthAll, Phrase.depthAll]
  rw [text, Phrase.expr, depth]
  refine whole_of_operand (fun d => operand_of_paren ?_)
    (unaryOps_misses_at (by decide) (by decide) (by decide)) closed d
  have list :=
    exprList_yields (c := ')') (List.forall_mem_cons.2 ⟨hsecond, hmore⟩)
      (by decide) hfirst d rest
  refine (finds_symbol "(" _).yields fun _ _ => ?_
  refine (finds_gap .lines rfl).yields fun _ _ =>
    list.andThen fun _ ts checked => ?_
  refine (finds_gap .lines rfl).bind fun _ _ =>
    (finds_symbol ")" _).bind fun _ _ => finds_pure ?_
  rw [Means, Term.check, checked, Phrase.exprs, Phrase.exprs]
  rfl

section Getline

variable {spot : Option Spot} {file : Option Phrase}
    (hspot : ∀ s ∈ spot, s.Reads) (hfile : ∀ x ∈ file, x.Reads)

theorem fileText_bounded (file : Option Phrase) (closed : closes rest = true) :
    bounded (Phrase.fileText file ++ rest) = true := by
  cases file with
  | none =>
      rw [Phrase.fileText, List.nil_append]
      exact closes_bounded closed
  | some file =>
      rw [Phrase.fileText]
      rfl

theorem bounded_target (bound : bounded rest = true) :
    Misses (do blank; target sub) rest := by
  have other : ∀ b ∈ bounds, isSolid b = true ∧ b ≠ '$' ∧
      isNameStart b = false := by decide
  obtain ⟨c, member, r, either⟩ := trimmed_cases bound
  obtain ⟨solid, dollar, start⟩ := other c member
  have missed : Misses (target sub) (c :: r) := target_misses_at dollar start
  rcases either with rfl | rfl
  · exact (finds_gap .line solid).bind_misses fun _ _ => missed
  · exact (finds_gap_space .line solid).bind_misses fun _ _ => missed

include hspot in
theorem getlineTarget_yields (d : Nat) (bound : bounded rest = true) :
    Yields (Spot.depthOption spot ≤ d)
      (optional (do blank; target (expression d)))
      (Spot.optionText spot ++ rest)
      (fun t => Target.checkOption t = .ok (Spot.place? spot)) rest := by
  cases spot with
  | none =>
      rw [Spot.optionText, Spot.place?, Spot.depthOption]
      refine Finds.fitting (Nat.zero_le d)
        ((bounded_target bound).optional.imp fun t none => ?_)
      rw [none, Target.checkOption]
  | some s =>
      rw [Spot.optionText, Spot.place?, Spot.depthOption]
      obtain ⟨c, r, text, opens⟩ := s.text_opens
      have gap : Finds blank (' ' :: (s.text ++ rest)) (fun _ => True)
          (s.text ++ rest) := by
        rw [text]
        exact finds_gap_space .line (isSolid_of_opensExpr opens)
      have found := gap.yields fun _ _ => (hspot s rfl).target d bound
      refine found.optional.imp ?_
      rintro _ ⟨t, rfl, means⟩
      simp only [Target.Means] at means
      rw [Target.checkOption, means]
      rfl

include hfile in
theorem getlineFile_yields (d : Nat) (closed : closes rest = true) :
    Yields (Phrase.depthOption file ≤ d)
      (optional
        (do blank; symbolNotBefore "<" ['=']; blank; expression d .operand))
      (Phrase.fileText file ++ rest) (fun t => Term.checkOption t =
        .ok (Phrase.expr? file)) rest := by
  cases file with
  | none =>
      have missed :
          Misses
            (do blank; symbolNotBefore "<" ['=']; blank; expression d .operand)
            rest := by
        have other : ∀ b ∈ closers,
            startOtherwise [(⟨"<", ['='], ()⟩ : Operator Unit)] b = true := by
              decide
        refine (quiet_finds .line (closes_quiet closed)).bind_misses fun _ _ =>
          ?_
        unfold closes at closed
        cases text : trimmed rest with
        | nil =>
            rw [text] at closed
            contradiction
        | cons c r =>
            rw [text] at closed
            exact (operator_misses_at
              (other c (List.contains_iff_mem.1 closed))).bind.bind
      rw [Phrase.fileText, Phrase.expr?, Phrase.depthOption]
      refine Finds.fitting (Nat.zero_le d)
        (missed.optional.imp fun t none => ?_)
      rw [none, Term.checkOption]
  | some x =>
      have text : Phrase.fileText (some x) ++ rest = ' ' :: '<' :: ' ' :: '(' ::
          (x.text ++ ')' :: rest) := by
        rw [Phrase.fileText]
        simp only [List.cons_append, List.append_assoc, List.nil_append]
      have sign : Finds (symbolNotBefore "<" ['='])
          ('<' :: ' ' :: '(' :: (x.text ++ ')' :: rest)) (fun _ => True)
          (' ' :: '(' :: (x.text ++ ')' :: rest)) :=
        fun offset => ⟨_, _, rfl, trivial⟩
      have found :
          Yields (x.depth + 1 ≤ d)
            (do blank; symbolNotBefore "<" ['=']; blank; expression d .operand)
            (' ' :: '<' :: ' ' :: '(' :: (x.text ++ ')' :: rest))
            (Means x.expr) rest := by
        refine (finds_gap_space .line rfl).yields fun _ _ =>
          sign.yields fun _ _ => ?_
        exact (finds_gap_space .line rfl).yields fun _ _ =>
          (hfile x rfl).operand d rest
      rw [text, Phrase.expr?, Phrase.depthOption]
      refine found.optional.imp ?_
      rintro _ ⟨t, rfl, means⟩
      simp only [Means] at means
      rw [Term.checkOption, means]
      rfl

theorem getline_break (spot : Option Spot) (bound : bounded rest = true) :
    ∃ b r, Spot.optionText spot ++ rest = b :: r ∧ isBreak b = true := by
  cases spot with
  | none =>
      obtain ⟨b, r, text, ends, -⟩ := bounded_head bound
      rw [Spot.optionText]
      exact ⟨b, r, text, ends⟩
  | some s =>
      rw [Spot.optionText]
      exact ⟨' ', _, rfl, by decide⟩

include hspot hfile

theorem reads_getline : (Phrase.getline spot file).Reads := by
  intro d rest closed
  have bound := fileText_bounded file closed
  obtain ⟨b, r, behind, ends⟩ := getline_break spot bound
  have text : (Phrase.getline spot file).text ++ rest = "getline".toList ++
      (Spot.optionText spot ++ (Phrase.fileText file ++ rest)) := by
    rw [Phrase.text, List.append_assoc, List.append_assoc]
    rfl
  have inside : "getline".toList.all Text.isAsciiWord = true := by decide
  have word : Finds (keyword "getline") ("getline".toList ++ b :: r)
      (fun _ => True) (b :: r) :=
    (token_finds (scanWord_of_mem inside ends (by decide))).imp fun _ _ =>
      trivial
  have taken : Misses name ("getline".toList ++ b :: r) :=
    name_misses_word inside (by decide) ends
  have noTarget : ∀ d, Misses (target (expression d))
      ("getline".toList ++ b :: r) := fun d =>
    (fieldTarget_misses_at (by decide)).orElse.misses
      (taken.bind.orElse.misses taken.bind)
  rw [text, Phrase.expr, behind, Phrase.depth]
  refine whole_of_operand (fun d => ?_)
    (unaryOps_misses_at (by decide) (by decide) (by decide)) closed d
  refine (operand_of_primary (by decide) (by decide) (noTarget d)).yields ?_
  refine (closedPrimary_of_start (by decide)).yields (Yields.orElse ?_)
  refine word.yields fun _ _ => ?_
  rw [← behind]
  refine ((getlineTarget_yields hspot d bound).bind fun _ t checked => ?_).iff
    Nat.max_le.symm
  refine (getlineFile_yields hfile d closed).map fun f checked' => ?_
  rw [Means, Term.check, checked, checked']
  rfl

end Getline

/-! ## All phrases -/

mutual

theorem Phrase.reads : ∀ x : Phrase, x.Reads
  | .number n => reads_number n
  | .string s => reads_string s
  | .read s => reads_read s.reads
  | .binary op left right => reads_binary op left.reads right.reads
  | .unary op operand => reads_unary op operand.reads
  | .ternary condition yes no =>
      reads_ternary condition.reads yes.reads no.reads
  | .call name args => reads_call name (Phrase.reads_all args)
  | .assign op s value => reads_assign op s.reads value.reads
  | .increment s up true => reads_postIncrement s.reads up
  | .increment s up false => reads_preIncrement s.reads up
  | .member key array => reads_member key.reads array
  | .getline spot file =>
      reads_getline (Spot.reads_option spot) (Phrase.reads_option file)
  | .tuple first second more =>
      reads_tuple first.reads second.reads (Phrase.reads_all more)

theorem Spot.reads : ∀ s : Spot, s.Reads
  | .variable name => reads_variable name
  | .element array key more =>
      reads_element array key.reads (Phrase.reads_all more)
  | .field index => reads_field index.reads

theorem Phrase.reads_all : ∀ (xs : List Phrase), ∀ x ∈ xs, x.Reads
  | [] => nofun
  | x :: xs => List.forall_mem_cons.2 ⟨x.reads, Phrase.reads_all xs⟩

theorem Phrase.reads_option : ∀ (file : Option Phrase), ∀ x ∈ file, x.Reads
  | none => nofun
  | some file => fun _ member => Option.some.inj member ▸ file.reads

theorem Spot.reads_option : ∀ (spot : Option Spot), ∀ s ∈ spot, s.Reads
  | none => nofun
  | some spot => fun _ member => Option.some.inj member ▸ spot.reads

end

end Awk.Source
