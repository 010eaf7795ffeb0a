import Awk.Proofs.Source.Token

/-!
# The ladder of binding levels

From an operand up to a whole expression, every level of the grammar first takes
what the next tighter one finds and then looks for its own operators.  An
operand stands for itself on every level whose operators do not follow it, and
it fits on all of them if it fits on one.  `rung d k` is the level with the
number `k`, over nested levels of depth `d`, and `goesOn k` tells whether the
operators that lead from there to the next one can start at a text.
-/

namespace Awk.Source

open Awk.Source.Parser (Scanner token require optional steps here)

variable {sub : Levels} {c : Char} {cs mid rest : List Char} {P R : Term → Prop}
    {d k : Nat}

theorem finds_here : Finds here cs (fun _ => True) cs :=
  fun offset => ⟨_, offset, rfl, trivial⟩

/-! ## Where no expression starts -/

def opensPrimary (c : Char) : Bool :=
  Text.isDigit c || c == '.' || c == '"' || c == '/' || c == '(' ||
    isNameStart c

def opensExpr (c : Char) : Bool := opensPrimary c || c == '$' || c == '+' ||
    c == '-' || c == '!'

theorem isSolid_of_opensExpr (opens : opensExpr c = true) :
    isSolid c = true := by
  have gaps : ∀ b ∈ [' ', '\t', '\r', '\n', ';', '#', '\\'],
      opensExpr b = false := by decide
  by_contra gap
  have member : c ∈ [' ', '\t', '\r', '\n', ';', '#', '\\'] := by
    simp only [isSolid, Gap.contains, Bool.and_eq_true, not_and_or,
      Bool.not_eq_true', Bool.not_eq_false, Bool.or_eq_true, beq_iff_eq,
      bne_iff_ne, ne_eq, not_not] at gap
    simp only [List.mem_cons, List.not_mem_nil, or_false]
    tauto
  rw [gaps c member] at opens
  contradiction

theorem scanPattern_misses_at (other : c ≠ '/')
    (pattern : Except Regex.PatternError Regex.Pattern) :
    scanPattern pattern (c :: cs) = none := by
  unfold scanPattern
  split
  · simp_all
  · rfl

theorem regexTerm_misses_at (other : c ≠ '/') : Misses regexTerm (c :: cs) :=
  (token_misses (scanPattern_misses_at other _)).bind

theorem openRegexTerm_misses_at (other : c ≠ '/') :
    Misses openRegexTerm (c :: cs) :=
  (token_misses (scanPattern_misses_at other _)).bind

theorem stringTerm_misses_at (other : c ≠ '"') :
    Misses stringTerm (c :: cs) := by
  have scan : scanString (c :: cs) = none := by
    unfold scanString
    split
    · simp_all
    · rfl
  exact (token_misses scan).bind

theorem openStringTerm_misses_at (other : c ≠ '"') :
    Misses openStringTerm (c :: cs) := by
  have scan : scanOpenString (c :: cs) = none := by
    unfold scanOpenString
    split
    · simp_all
    · rfl
  exact (token_misses scan).bind

theorem group_misses_at (other : c ≠ '(') : Misses (group sub) (c :: cs) :=
  (symbol_misses_at (by simpa [startOtherwise] using other.symm)).bind

theorem closedPrimary_of_word (digit : Text.isDigit c = false) (point : c ≠ '.')
    (quote : c ≠ '"') (slash : c ≠ '/') (paren : c ≠ '(') :
    Agree (closedPrimary sub) (getlineTerm sub <|> builtinCall sub <|>
      bareBuiltin <|> functionCall sub) (c :: cs) := by
  refine (number_misses_at digit point).orElse.trans ?_
  refine (stringTerm_misses_at quote).orElse.trans ?_
  refine (openStringTerm_misses_at quote).orElse.trans ?_
  refine (regexTerm_misses_at slash).orElse.trans ?_
  refine (openRegexTerm_misses_at slash).orElse.trans ?_
  exact (group_misses_at paren).orElse

theorem closedPrimary_misses_at (h : opensPrimary c = false) :
    Misses (closedPrimary sub) (c :: cs) := by
  simp only [opensPrimary, Bool.or_eq_false_iff, beq_eq_false_iff_ne] at h
  obtain ⟨⟨⟨⟨⟨digit, point⟩, quote⟩, slash⟩, paren⟩, start⟩ := h
  refine (closedPrimary_of_word digit point quote slash paren).misses ?_
  refine (keyword_misses_at (by decide) start).bind.orElse.misses ?_
  refine (builtinName_misses_at start).bind.orElse.misses ?_
  refine (builtinName_misses_at start).bind.orElse.misses ?_
  exact (name_misses_at start).bind

theorem stepOps_misses_at (plus : c ≠ '+') (minus : c ≠ '-') :
    Misses (operator stepOps) (c :: cs) :=
  operator_misses_at (by simp [startOtherwise, stepOps, plus.symm, minus.symm])

theorem unaryOps_misses_at (plus : c ≠ '+') (minus : c ≠ '-') (bang : c ≠ '!') :
    Misses (operator unaryOps) (c :: cs) :=
  operator_misses_at
    (by simp [startOtherwise, unaryOps, plus.symm, minus.symm, bang.symm])

theorem fieldTarget_misses_at (other : c ≠ '$') :
    Misses (fieldTarget sub) (c :: cs) :=
  (symbol_misses_at (by simpa [startOtherwise] using other.symm)).bind

theorem namedTarget_misses_at (start : isNameStart c = false) :
    Misses (namedTarget sub) (c :: cs) :=
  (name_misses_at start).bind.orElse.misses (name_misses_at start).bind

theorem target_misses_at (other : c ≠ '$') (start : isNameStart c = false) :
    Misses (target sub) (c :: cs) :=
  (fieldTarget_misses_at other).orElse.misses (namedTarget_misses_at start)

theorem operand_of_primary (plus : c ≠ '+') (minus : c ≠ '-')
    (missed : Misses (target sub) (c :: cs)) :
    Agree (operand sub) (closedPrimary sub) (c :: cs) :=
  (stepOps_misses_at plus minus).bind.orElse.trans missed.bind.orElse

theorem unary_misses_at (h : opensExpr c = false) (deep : 3 ≤ d) :
    Misses (expression d .unary) (c :: cs) := by
  obtain ⟨d, rfl⟩ := Nat.exists_eq_add_of_le' deep
  simp only [opensExpr, Bool.or_eq_false_iff, beq_eq_false_iff_ne] at h
  obtain ⟨⟨⟨⟨primary, dollar⟩, plus⟩, minus⟩, bang⟩ := h
  have start : isNameStart c = false := by
    simp only [opensPrimary, Bool.or_eq_false_iff] at primary
    exact primary.2
  have operand : Misses (expression (d + 1) .operand) (c :: cs) :=
    (operand_of_primary plus minus (target_misses_at dollar start)).misses
      (closedPrimary_misses_at primary)
  exact (unaryOps_misses_at plus minus bang).bind.orElse.misses operand.bind

theorem unary_sinks_at (h : opensExpr c = false) (shallow : d < 3) :
    Sinks (expression d .unary) (c :: cs) := by
  simp only [opensExpr, Bool.or_eq_false_iff, beq_eq_false_iff_ne] at h
  obtain ⟨⟨⟨⟨-, -⟩, plus⟩, minus⟩, bang⟩ := h
  have unsigned : Misses (operator unaryOps) (c :: cs) :=
    unaryOps_misses_at plus minus bang
  match d, shallow with
  | 0, _ => exact fun _ => rfl
  | 1, _ => exact unsigned.bind.orElse.sinks fun _ => rfl
  | 2, _ =>
      have base : Sinks (expression 0 .operand) (c :: cs) := fun _ => rfl
      exact unsigned.bind.orElse.sinks base.bind

theorem expr_misses_at (h : opensExpr c = false) (deep : 4 ≤ d) :
    Misses (expression d (.expr true)) (c :: cs) := by
  obtain ⟨d, rfl⟩ := Nat.exists_eq_add_of_le' deep
  have unary : Misses (expression (d + 3) .unary) (c :: cs) :=
    unary_misses_at h (by omega)
  have comparison : Misses (comparison (expression (d + 3)) true) (c :: cs) :=
    finds_here.bind_misses fun _ _ => unary.bind.bind.bind.bind
  exact comparison.bind.bind.bind.bind.bind

theorem expr_sinks_at (h : opensExpr c = false) (shallow : d < 4) :
    Sinks (expression d (.expr true)) (c :: cs) := by
  cases d with
  | zero => exact fun _ => rfl
  | succ d =>
      have unary : Sinks (expression d .unary) (c :: cs) :=
        unary_sinks_at h (by omega)
      have comparison : Sinks (comparison (expression d) true) (c :: cs) :=
        finds_here.bind_sinks fun _ _ => unary.bind.bind.bind.bind
      exact comparison.bind.bind.bind.bind.bind

/-! ## What follows an operand -/

def trimmed : List Char → List Char
  | ' ' :: cs => cs
  | cs => cs

def goesOn : Nat → List Char → Bool
  | 0, cs => powerOps.any fun op => (op.scan cs).isSome
  | 1, cs => mulOps.any fun op => (op.scan cs).isSome
  | 2, cs => addOps.any fun op => (op.scan cs).isSome
  | 3, cs => !startsOperator cs && cs.head?.any opensExpr
  | 4, cs =>
      ((⟨"|", ['|'], ()⟩ : Operator Unit).scan cs).isSome ||
        (compareOps true).any fun op => (op.scan cs).isSome
  | 5, cs => matchOps.any fun op => (op.scan cs).isSome
  | 6, cs => (scanWord ["in"] cs).isSome
  | 7, cs =>
      [(⟨"&&", [], .and⟩ : Operator BinaryOp)].any fun op => (op.scan cs).isSome
  | 8, cs =>
      [(⟨"||", [], .or⟩ : Operator BinaryOp)].any fun op => (op.scan cs).isSome
  | _, cs =>
      assignOps.any (fun op => (op.scan cs).isSome) ||
        ((⟨"?", [], ()⟩ : Operator Unit).scan cs).isSome

def quiet (k : Nat) (rest : List Char) : Bool :=
  (trimmed rest).head?.any isSolid && (List.range k).all fun j =>
    !goesOn j (trimmed rest)

theorem quiet_goesOn (h : quiet k rest = true) {j : Nat} (below : j < k) :
    goesOn j (trimmed rest) = false := by
  simp only [quiet, Bool.and_eq_true, List.all_eq_true, List.mem_range,
    Bool.not_eq_true'] at h
  exact h.2 j below

theorem quiet_mono (h : quiet k rest = true) {j : Nat} (le : j ≤ k) :
    quiet j rest = true := by
  simp only [quiet, Bool.and_eq_true, List.all_eq_true, List.mem_range] at h ⊢
  exact ⟨h.1, fun i below => h.2 i (by omega)⟩

theorem finds_trimmed (g : Gap) (h : (trimmed rest).head?.any isSolid = true) :
    Finds (gap g) rest (fun _ => True) (trimmed rest) := by
  unfold trimmed at h ⊢
  split at h
  · next cs =>
    cases cs with
    | nil => contradiction
    | cons c r => exact finds_gap_space g h
  · cases rest with
    | nil => contradiction
    | cons c r => exact finds_gap g h

theorem quiet_finds (g : Gap) (h : quiet k rest = true) :
    Finds (gap g) rest (fun _ => True) (trimmed rest) := by
  simp only [quiet, Bool.and_eq_true] at h
  exact finds_trimmed g h.1

theorem operator_misses_any {α : Type} {ops : List (Operator α)}
    (h : ops.any (fun op => (op.scan cs).isSome) = false) :
    Misses (operator ops) cs := by
  refine operator_misses fun op inside => ?_
  have absent := List.any_eq_false.1 h op inside
  exact Option.not_isSome_iff_eq_none.1 absent

/-! ## Steps -/

def infixStep (g : Gap) (ops : List (Operator BinaryOp)) (operand : Parser Term)
    (left : Term) : Parser Term := do
  blank
  let (op, _) ← operator ops
  gap g
  let right ← operand
  return .binary op left right

theorem infixStep_misses {g : Gap} {ops : List (Operator BinaryOp)}
    {operand : Parser Term} {left : Term} (solid : quiet 0 rest = true)
    (h : ops.any (fun op => (op.scan (trimmed rest)).isSome) = false) :
    Misses (infixStep g ops operand left) rest :=
  (quiet_finds .line solid).bind_misses fun _ _ => (operator_misses_any h).bind

theorem concatStep_misses {left : Term} (deep : 3 ≤ d)
    (solid : quiet 0 rest = true) (h : goesOn 3 (trimmed rest) = false) :
    Misses (concatStep (expression d) left) rest := by
  refine (quiet_finds .line solid).bind_misses fun _ _ => ?_
  simp only [quiet, Bool.and_eq_true] at solid
  simp only [goesOn, Bool.and_eq_false_iff, Bool.not_eq_false'] at h
  generalize trimmed rest = cs at h solid
  cases cs with
  | nil => simp at solid
  | cons c r =>
      cases starts : startsOperator (c :: r) with
      | true =>
          have refused :
              Misses (require fun rest => !startsOperator rest) (c :: r) := by
            intro offset
            simp only [require, starts]
            rfl
          exact refused.bind
      | false =>
          have allowed :
              Finds (require fun rest => !startsOperator rest) (c :: r)
                (fun _ => True) (c :: r) := by
            intro offset
            refine ⟨(), offset, ?_, trivial⟩
            simp only [require, starts]
            rfl
          have nothing : opensExpr c = false := by
            rcases h with h | h
            · rw [starts] at h
              contradiction
            · exact h
          exact allowed.bind_misses fun _ _ =>
            (unary_misses_at nothing deep).bind.bind.bind

theorem pipeStep_misses {start : Cursor} (solid : quiet 0 rest = true)
    (h : goesOn 4 (trimmed rest) = false) :
    Misses (pipeStep sub start) rest := by
  simp only [goesOn, Bool.or_eq_false_iff] at h
  refine (quiet_finds .line solid).bind_misses fun _ _ => ?_
  exact (operator_misses_any (by simpa using h.1)).bind.bind

theorem memberStep_misses {left : Term} (solid : quiet 0 rest = true)
    (h : goesOn 6 (trimmed rest) = false) :
    Misses (memberStep left) rest := by
  refine (quiet_finds .line solid).bind_misses fun _ _ => ?_
  exact (token_misses (Option.not_isSome_iff_eq_none.1
    (Bool.eq_false_iff.1 h))).bind

theorem assignStep_misses {left : Term} (solid : quiet 0 rest = true)
    (h : goesOn 9 (trimmed rest) = false) :
    Misses (assignStep sub true left) rest := by
  simp only [goesOn, Bool.or_eq_false_iff] at h
  exact (quiet_finds .line solid).bind_misses fun _ _ =>
    (operator_misses_any h.1).bind

theorem ternaryStep_misses {left : Term} (solid : quiet 0 rest = true)
    (h : goesOn 9 (trimmed rest) = false) :
    Misses (ternaryStep sub true left) rest := by
  simp only [goesOn, Bool.or_eq_false_iff] at h
  refine (quiet_finds .line solid).bind_misses fun _ _ => ?_
  exact (operator_misses_any (by simpa using h.2)).bind.bind

/-! ## Levels -/

variable {fits : Prop} {n : Nat}

/-- The knot of the grammar: a level fits if what it contains fits one level
deeper. -/
theorem Yields.nest (level : Level)
    (h : ∀ d, Yields (n ≤ d) (levelBody (expression d) level) cs P rest)
    (d : Nat) :
    Yields (n + 1 ≤ d) (expression d level) cs P rest := by
  cases d with
  | zero => exact ⟨nofun, fun _ _ => rfl⟩
  | succ d => exact (h d).iff (by omega)

def rung (d : Nat) : Nat → Parser Term
  | 0 | 1 => expression d .unary
  | 2 => product (expression d)
  | 3 => sum (expression d)
  | 4 => concatenation (expression d)
  | 5 => comparison (expression d) true
  | 6 => matching (expression d) true
  | 7 => membership (expression d) true
  | 8 => conjunction (expression d) true
  | 9 => disjunction (expression d) true
  | _ => wholeExpr (expression d) true

theorem leftGrouped_alone {p : Parser Term} {step : Term → Parser Term}
    (first : Yields fits p cs P rest)
    (stop : fits → ∀ left, Misses (step left) rest) :
    Yields fits (leftGrouped p step) cs P rest :=
  first.andThen fun yes a known =>
    (steps_none (.inr (stop yes a))).imp fun _ same => same ▸ known

theorem leftGrouped_once {fits' : Prop} {p : Parser Term}
    {step : Term → Parser Term} (first : Yields fits p cs P (c :: mid))
    (second : ∀ a, P a → Yields fits' (step a) (c :: mid) R rest)
    (stop : fits → ∀ left, Misses (step left) rest) :
    Yields (fits ∧ fits') (leftGrouped p step) cs R rest :=
  first.bind fun yes a known => (second a known).once fun _ b _ =>
    .inr (stop yes b)

theorem power_alone (first : Yields fits (expression d .operand) cs P rest)
    (h : quiet 1 rest = true) :
    Yields fits (power (expression d)) cs P rest := by
  refine first.andThen fun _ base known => ?_
  refine Misses.orElse ?_ |>.finds (finds_pure known)
  have still : goesOn 0 (trimmed rest) = false := quiet_goesOn h (by decide)
  exact (quiet_finds .line h).bind_misses fun _ _ =>
    (operator_misses_any still).bind

theorem unary_of_operand
    (found : ∀ d, Yields (n ≤ d) (operand (expression d)) cs P rest)
    (unsigned : Misses (operator unaryOps) cs) (still : quiet 1 rest = true)
    (d : Nat) :
    Yields (n + 3 ≤ d) (expression d .unary) cs P rest := by
  have power := Yields.nest .power fun d =>
    power_alone (Yields.nest .operand found d) still
  exact Yields.nest .unary (fun d => unsigned.bind.orElse.yields (power d)) d

/-- What a level finds stands for itself on the next one, unless its operators
follow. -/
theorem rung_alone (first : Yields fits (rung d k) cs P rest)
    (deep : fits → 3 ≤ d) (h : quiet (k + 1) rest = true) :
    Yields fits (rung d (k + 1)) cs P rest := by
  have solid : quiet 0 rest = true := quiet_mono h (by omega)
  have still : goesOn k (trimmed rest) = false := quiet_goesOn h (by omega)
  match k, first, still with
  | 0, first, _ => exact first
  | 1, first, still =>
      exact leftGrouped_alone first fun _ _ =>
        infixStep_misses (g := .lines) solid still
  | 2, first, still =>
      exact leftGrouped_alone first fun _ _ =>
        infixStep_misses (g := .lines) solid still
  | 3, first, still =>
      exact leftGrouped_alone first fun yes _ =>
        concatStep_misses (deep yes) solid still
  | 4, first, still =>
      have compare :
          (compareOps true).any (fun op => (op.scan (trimmed rest)).isSome) =
            false := by
        simp only [goesOn, Bool.or_eq_false_iff] at still
        exact still.2
      refine finds_here.yields fun start _ => first.andThen fun _ left known =>
        ?_
      refine (pipeStep_misses solid still).orElse.finds ?_
      exact (infixStep_misses (g := .line) solid compare).orElse.finds
        (finds_pure known)
  | 5, first, still =>
      exact leftGrouped_alone first fun _ _ =>
        infixStep_misses (g := .line) solid still
  | 6, first, still =>
      exact leftGrouped_alone first fun _ _ => memberStep_misses solid still
  | 7, first, still =>
      exact leftGrouped_alone first fun _ _ =>
        infixStep_misses (g := .lines) solid still
  | 8, first, still =>
      exact leftGrouped_alone first fun _ _ =>
        infixStep_misses (g := .lines) solid still
  | 9, first, still =>
      refine first.andThen fun _ left known => ?_
      refine (assignStep_misses solid still).orElse.finds ?_
      exact (ternaryStep_misses solid still).orElse.finds (finds_pure known)
  | k + 10, first, _ => exact first

theorem rung_climb {j : Nat} (le : j ≤ k)
    (first : Yields fits (rung d j) cs P rest) (deep : fits → 3 ≤ d)
    (h : quiet k rest = true) : Yields fits (rung d k) cs P rest := by
  induction le with
  | refl => exact first
  | step le ih => exact rung_alone (ih (quiet_mono h (by omega))) deep h

end Awk.Source
