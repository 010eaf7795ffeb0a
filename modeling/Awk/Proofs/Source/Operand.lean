import Awk.Proofs.Source.Ladder

/-!
# Operands, lists and targets

The parts that phrases are written with: operands in parentheses, lists of them
and targets.  `Phrase.Reads` says of a phrase that its text is read as its tree
wherever it may stand, and `Spot.Reads` says so of a target.
-/

namespace Awk.Source

open Awk.Source.Parser (optional many steps stepsWithin)

variable {sub : Levels} {c : Char} {cs rest : List Char} {d k : Nat}

/-! ## Meanings -/

def Means (e : Expr) (t : Term) : Prop := t.check = .ok e

def Target.Means (place : Place) (t : Target) : Prop := t.check = .ok place

section Meanings

variable {a b t : Term} {e e₁ e₂ : Expr} {op : BinaryOp}

theorem Means.binary (left : Means e₁ a) (right : Means e₂ b) :
    Means (.binary op e₁ e₂) (.binary op a b) := by
  simp only [Means] at left right
  simp only [Means, Term.check, left, right]
  rfl

theorem Means.unary {op : UnaryOp} (operand : Means e a) :
    Means (.unary op e) (.unary op a) := by
  simp only [Means] at operand
  simp only [Means, Term.check, operand]
  rfl

theorem Means.ternary {e₃ : Expr} (condition : Means e₁ a) (yes : Means e₂ b)
    (no : Means e₃ t) :
    Means (.ternary e₁ e₂ e₃) (.ternary a b t) := by
  simp only [Means] at condition yes no
  simp only [Means, Term.check, condition, yes, no]
  rfl

theorem Target.Means.read {place : Place} {s : Target} (h : s.Means place) :
    Source.Means (.read place) (.target s) := by
  simp only [Target.Means] at h
  simp only [Source.Means, Term.check, h]
  rfl

theorem Means.assign {op : Option Arithmetic} {word : Word} {place : Place}
    (target : Means (.read place) a) (value : Means e b) :
    Means (.assign op place e) (.assign op word a b) := by
  simp only [Means] at target value
  simp only [Means, Term.check, target, value, placeOf]
  rfl

theorem Means.preIncrement {up : Bool} {word : Word} {place : Place}
    (operand : Means (.read place) a) :
    Means (.increment place up false) (.preIncrement up word a) := by
  simp only [Means] at operand
  simp only [Means, Term.check, operand, placeOf]
  rfl

theorem Target.Means.postIncrement {up : Bool} {place : Place} {s : Target}
    (h : s.Means place) :
    Source.Means (.increment place up true) (.postIncrement s up) := by
  simp only [Target.Means] at h
  simp only [Source.Means, Term.check, h]
  rfl

theorem subscriptOf_single (e : Expr) : subscriptOf [e] = keyParts e := by
  cases e <;> rfl

theorem Means.member {array : String} (key : Means e a) :
    Means (.member (keyParts e) array) (.member a array) := by
  simp only [Means] at key
  simp only [Means, Term.check, key, ← subscriptOf_single]
  rfl

theorem Means.group (h : Means e a) : Means e (.group [a]) := by
  simp only [Means] at h
  simp only [Means, Term.check, Term.checkAll, h]
  rfl

end Meanings

/-! ## What follows a phrase -/

def closers : List Char := [')', ',', ']', ':', '\x7d']

def closes (rest : List Char) : Bool :=
  (trimmed rest).head?.any closers.contains

def bounds : List Char := closers ++ ['=', '+', '-', '*', '/', '%', '^', '<']

def bounded (rest : List Char) : Bool :=
  (trimmed rest).head?.any bounds.contains

theorem trimmed_cases {ends : List Char}
    (h : (trimmed rest).head?.any ends.contains = true) :
    ∃ c ∈ ends, ∃ r, rest = c :: r ∨ rest = ' ' :: c :: r := by
  unfold trimmed at h
  split at h
  · next cs =>
    cases cs with
    | nil => contradiction
    | cons c r => exact ⟨c, List.contains_iff_mem.1 h, r, .inr rfl⟩
  · cases rest with
    | nil => contradiction
    | cons c r => exact ⟨c, List.contains_iff_mem.1 h, r, .inl rfl⟩

theorem closes_quiet (h : closes rest = true) : quiet 10 rest = true := by
  obtain ⟨c, member, r, either⟩ := trimmed_cases h
  simp only [closers, List.mem_cons, List.not_mem_nil, or_false] at member
  rcases member with rfl | rfl | rfl | rfl | rfl
  all_goals rcases either with rfl | rfl
  all_goals rfl

theorem closes_bounded (h : closes rest = true) : bounded rest = true := by
  unfold closes at h
  unfold bounded
  generalize (trimmed rest).head? = head at h ⊢
  cases head with
  | none => contradiction
  | some c =>
      simp only [Option.any_some, List.contains_iff_mem] at h ⊢
      exact List.mem_append_left _ h

theorem bounded_head (h : bounded rest = true) :
    ∃ b r, rest = b :: r ∧ isBreak b = true ∧ b ≠ '(' := by
  have breaks : ∀ b ∈ ' ' :: bounds, isBreak b = true ∧ b ≠ '(' := by decide
  obtain ⟨c, member, r, rfl | rfl⟩ := trimmed_cases h
  · exact ⟨c, r, rfl, breaks c (List.mem_cons_of_mem _ member)⟩
  · exact ⟨' ', c :: r, rfl, breaks ' ' List.mem_cons_self⟩

theorem bounded_subscript (h : bounded rest = true) :
    Misses (subscript sub) rest := by
  have free : ∀ b ∈ bounds, isSolid b = true ∧
      startOtherwise [(⟨"[", [], ()⟩ : Operator Unit)] b = true := by decide
  obtain ⟨c, member, r, either⟩ := trimmed_cases h
  obtain ⟨solid, other⟩ := free c member
  have missed : Misses (symbol "[") (c :: r) := symbol_misses_at other
  rcases either with rfl | rfl
  · exact (finds_gap .line solid).bind_misses fun _ _ => missed.bind
  · exact (finds_gap_space .line solid).bind_misses fun _ _ => missed.bind

/-! ## How a phrase starts -/

theorem FreeName.start (name : FreeName) : ∃ c r, name.val.toList = c :: r ∧
    isNameStart c = true :=
  isFreeName_start name.property

theorem Spot.text_start (s : Spot) : ∃ c r, s.text = c :: r ∧
    (c = '$' ∨ isNameStart c = true) := by
  cases s with
  | «variable» name =>
      obtain ⟨c, r, text, start⟩ := name.start
      exact ⟨c, r, by rw [Spot.text, text], .inr start⟩
  | element array key more =>
      obtain ⟨c, r, text, start⟩ := array.start
      rw [Spot.text, text]
      exact ⟨c, _, rfl, .inr start⟩
  | field index => exact ⟨'$', _, rfl, .inl rfl⟩

theorem FunctionName.start (name : FunctionName) :
    ∃ c r, name.val.toList = c :: r ∧ isNameStart c = true := by
  rcases name.property with free | builtin
  · exact isFreeName_start free
  · have starts : areWords builtinNames = true := by decide
    have start := List.all_eq_true.1 starts name builtin
    cases text : name.val.toList with
    | nil =>
        rw [text] at start
        contradiction
    | cons c r =>
        rw [text] at start
        exact ⟨c, r, rfl, start⟩

theorem opensExpr_of_nameStart (start : isNameStart c = true) :
    opensExpr c = true := by
  simp [opensExpr, opensPrimary, start]

theorem Spot.text_opens (s : Spot) : ∃ c r, s.text = c :: r ∧
    opensExpr c = true := by
  obtain ⟨c, r, text, rfl | start⟩ := s.text_start
  · exact ⟨'$', r, text, rfl⟩
  · exact ⟨c, r, text, opensExpr_of_nameStart start⟩

theorem Phrase.text_opens (x : Phrase) : ∃ c r, x.text = c :: r ∧
    opensExpr c = true := by
  have open_paren : opensExpr '(' = true := by decide
  cases x with
  | number n =>
      have filled : Decimal.digits n ≠ [] := Nat.toDigits_ne_nil
      obtain ⟨c, r, text⟩ := List.exists_cons_of_ne_nil filled
      have digit : Text.isDigit c = true :=
        digits_areDigits n c (text ▸ List.mem_cons_self)
      refine ⟨c, r, ?_, by simp [opensExpr, opensPrimary, digit]⟩
      rw [Phrase.text, text]
  | string s => exact ⟨'"', _, by rw [Phrase.text]; rfl, by decide⟩
  | read spot =>
      rw [Phrase.text]
      exact spot.text_opens
  | binary op left right => exact ⟨'(', _, by rw [Phrase.text]; rfl, open_paren⟩
  | unary op operand =>
      rw [Phrase.text]
      cases op with
      | not => exact ⟨'!', _, rfl, by decide⟩
      | minus => exact ⟨'-', _, rfl, by decide⟩
      | plus => exact ⟨'+', _, rfl, by decide⟩
  | ternary condition yes no =>
      exact ⟨'(', _, by rw [Phrase.text]; rfl, open_paren⟩
  | call name args =>
      obtain ⟨c, r, text, start⟩ := name.start
      rw [Phrase.text, text]
      exact ⟨c, _, rfl, opensExpr_of_nameStart start⟩
  | assign op spot value =>
      obtain ⟨c, r, text, opens⟩ := spot.text_opens
      rw [Phrase.text, text]
      exact ⟨c, _, rfl, opens⟩
  | increment spot up returnsOld =>
      cases returnsOld with
      | true =>
          obtain ⟨c, r, text, opens⟩ := spot.text_opens
          rw [Phrase.text, text]
          exact ⟨c, _, rfl, opens⟩
      | false =>
          rw [Phrase.text]
          cases up with
          | true => exact ⟨'+', _, rfl, by decide⟩
          | false => exact ⟨'-', _, rfl, by decide⟩
  | member key array => exact ⟨'(', _, by rw [Phrase.text]; rfl, open_paren⟩
  | getline spot file => exact ⟨'g', _, by rw [Phrase.text]; rfl, by decide⟩
  | tuple first second rest =>
      exact ⟨'(', _, by rw [Phrase.text]; rfl, open_paren⟩

theorem Phrase.finds_gap (x : Phrase) (g : Gap) (rest : List Char) :
    Finds (gap g) (x.text ++ rest) (fun _ => True) (x.text ++ rest) := by
  obtain ⟨c, r, text, opens⟩ := x.text_opens
  rw [text]
  exact Source.finds_gap g (isSolid_of_opensExpr opens)

/-! ## Operands in parentheses -/

def Phrase.Reads (x : Phrase) : Prop :=
  ∀ (d : Nat) (rest : List Char), closes rest = true →
    Yields (x.depth ≤ d) (expression d (.expr true)) (x.text ++ rest)
      (Means x.expr) rest

theorem many_none {α : Type} {p : Parser α} (missed : Misses p rest) :
    Finds (many p) rest (· = []) rest := by
  refine (steps_none (.inr missed.bind)).bind fun found known => ?_
  rw [known]
  exact finds_pure rfl

theorem separator_misses {p : Parser Term} (solid : isSolid c = true)
    (other : startOtherwise [(⟨",", [], ()⟩ : Operator Unit)] c = true) :
    Misses (do blank; symbol ","; newlines; p) (c :: rest) :=
  (Source.finds_gap .line solid).bind_misses fun _ _ =>
    (symbol_misses_at other).bind

theorem closedPrimary_of_paren {fits : Prop} {P : Term → Prop}
    (found : Yields fits (group sub) ('(' :: cs) P rest) :
    Yields fits (closedPrimary sub) ('(' :: cs) P rest := by
  refine (number_misses_at rfl (by decide)).orElse.yields ?_
  refine (stringTerm_misses_at (by decide)).orElse.yields ?_
  refine (openStringTerm_misses_at (by decide)).orElse.yields ?_
  refine (regexTerm_misses_at (by decide)).orElse.yields ?_
  refine (openRegexTerm_misses_at (by decide)).orElse.yields ?_
  exact found.orElse

theorem operand_of_paren {fits : Prop} {P : Term → Prop}
    (found : Yields fits (group sub) ('(' :: cs) P rest) :
    Yields fits (operand sub) ('(' :: cs) P rest := by
  have missed : Misses (target sub) ('(' :: cs) :=
    target_misses_at (by decide) (by decide)
  exact (operand_of_primary (by decide) (by decide) missed).yields
    (closedPrimary_of_paren found)

section Parentheses

variable {x : Phrase} (h : x.Reads) (d : Nat) (rest : List Char)

include h

theorem Phrase.Reads.group :
    Yields (x.depth ≤ d) (group (expression d)) ('(' :: (x.text ++ ')' :: rest))
      (Means x.expr) rest := by
  refine (finds_symbol "(" _).yields fun _ _ => ?_
  refine (x.finds_gap .lines _).yields fun _ _ => ?_
  have list : Yields (x.depth ≤ d) (exprList (expression d))
      (x.text ++ ')' :: rest) (fun ts => ∃ t, ts = [t] ∧
        Means x.expr t) (')' :: rest) := by
    refine (h d (')' :: rest) rfl).andThen fun _ t known => ?_
    refine (many_none (separator_misses rfl rfl)).bind fun more none =>
      finds_pure ⟨t, ?_, known⟩
    rw [none]
  refine list.andThen fun _ ts known => ?_
  obtain ⟨t, rfl, means⟩ := known
  refine (Source.finds_gap .lines rfl).bind fun _ _ => ?_
  exact (finds_symbol ")" _).bind fun _ _ => finds_pure means.group

theorem Phrase.Reads.operand :
    Yields (x.depth + 1 ≤ d) (expression d .operand)
      ('(' :: (x.text ++ ')' :: rest)) (Means x.expr) rest :=
  Yields.nest .operand (fun d => operand_of_paren (h.group d rest)) d

theorem Phrase.Reads.rung (positive : 1 ≤ k) (still : quiet k rest = true) :
    Yields (x.depth + 3 ≤ d) (rung d k) ('(' :: (x.text ++ ')' :: rest))
      (Means x.expr) rest := by
  have unsigned : Misses (operator unaryOps) ('(' :: (x.text ++ ')' :: rest)) :=
    unaryOps_misses_at (by decide) (by decide) (by decide)
  have unary :=
    unary_of_operand (fun d => operand_of_paren (h.group d rest)) unsigned
      (quiet_mono still positive) d
  exact rung_climb (j := 1) positive unary (by omega) still

theorem Phrase.Reads.enclosed (closed : closes rest = true) :
    Yields (x.depth + 4 ≤ d) (expression d (.expr true))
      ('(' :: (x.text ++ ')' :: rest)) (Means x.expr) rest :=
  Yields.nest (.expr true) (fun d => h.rung d rest (by decide)
    (closes_quiet closed)) d

end Parentheses

/-! ## Lists -/

def listEnds : List Char := [')', ']']

theorem listEnd_facts (member : c ∈ listEnds) :
    isSolid c = true ∧ closers.contains c = true ∧
    startOtherwise [(⟨",", [], ()⟩ : Operator Unit)] c = true ∧ c ≠ ' ' := by
  have all : ∀ c ∈ listEnds, isSolid c = true ∧ closers.contains c = true ∧
      startOtherwise [(⟨",", [], ()⟩ : Operator Unit)] c = true ∧ c ≠ ' ' := by
        decide
  exact all c member

theorem moreText_closes (member : c ∈ listEnds) (xs : List Phrase)
    (rest : List Char) :
    closes (Phrase.moreText xs ++ c :: rest) = true := by
  cases xs with
  | nil =>
      obtain ⟨-, closer, -, other⟩ := listEnd_facts member
      rw [Phrase.moreText, List.nil_append, closes]
      have same : trimmed (c :: rest) = c :: rest := by
        unfold trimmed
        split
        · simp_all
        · rfl
      rw [same]
      exact closer
  | cons x xs =>
      rw [Phrase.moreText]
      rfl

section Lists

variable {xs : List Phrase} (hxs : ∀ x ∈ xs, x.Reads) (member : c ∈ listEnds)

include hxs member

theorem moreText_yields (d : Nat) (rest bound : List Char)
    (enough : (Phrase.moreText xs).length ≤ bound.length) (found : List Term) :
    Yields (Phrase.depthAll xs ≤ d)
      (stepsWithin (fun found => do
        let t ← (do blank; symbol ","; newlines; expression d (.expr true))
        Parser.pure (t :: found)) bound found)
      (Phrase.moreText xs ++ c :: rest)
      (fun ts => ∃ more, ts = more.reverse ++ found ∧
        Term.checkAll more = .ok (Phrase.exprs xs)) (c :: rest) := by
  -- The terms that are found come in reverse.
  induction xs generalizing bound found with
  | nil =>
      obtain ⟨solid, -, other, -⟩ := listEnd_facts member
      rw [Phrase.moreText, List.nil_append, Phrase.depthAll]
      refine Finds.fitting (Nat.zero_le d) ?_
      refine (stepsWithin_stop (.inr (separator_misses solid other).bind)
        bound).imp fun ts same => ⟨[], same, ?_⟩
      rw [Phrase.exprs]
      rfl
  | cons x xs ih =>
      obtain ⟨first, others⟩ := List.forall_mem_cons.1 hxs
      rw [Phrase.moreText] at enough ⊢
      simp only [List.cons_append, List.append_assoc] at enough ⊢
      cases bound with
      | nil => simp at enough
      | cons b bound =>
          have item :
              Yields (x.depth + 4 ≤ d)
                (do blank; symbol ","; newlines; expression d (.expr true))
                (',' :: ' ' :: '(' :: (x.text ++ ')' ::
                  (Phrase.moreText xs ++ c :: rest))) (Means x.expr)
                (Phrase.moreText xs ++ c :: rest) := by
            refine (Source.finds_gap .line rfl).yields fun _ _ => ?_
            refine (finds_symbol "," _).yields fun _ _ => ?_
            refine (finds_gap_space .lines rfl).yields fun _ _ => ?_
            exact first.enclosed d _ (moreText_closes member xs rest)
          have step := item.andThen (R := fun ts => ∃ t, ts = t :: found ∧
            Means x.expr t) (f := fun t => Parser.pure (t :: found))
            fun _ t means => finds_pure ⟨t, rfl, means⟩
          rw [Phrase.depthAll]
          refine (step.next ?_).iff Nat.max_le.symm
          rintro - _ ⟨t, rfl, means⟩
          have shorter : (Phrase.moreText xs).length ≤ bound.length := by
            simp only [List.length_cons, List.length_append] at enough
            omega
          refine (ih others bound shorter (t :: found)).imp ?_
          rintro _ ⟨more, rfl, checked⟩
          refine ⟨t :: more, by simp, ?_⟩
          simp only [Means] at means
          rw [Term.checkAll, means, checked, Phrase.exprs]
          rfl

theorem exprList_yields {x : Phrase} (hx : x.Reads) (d : Nat)
    (rest : List Char) :
    Yields (Phrase.depthAll (x :: xs) ≤ d) (exprList (expression d))
      ('(' :: (x.text ++ ')' :: (Phrase.moreText xs ++ c :: rest)))
      (fun ts => Term.checkAll ts = .ok (Phrase.exprs (x :: xs)))
        (c :: rest) := by
  have others : Yields (Phrase.depthAll xs ≤ d)
      (many (do blank; symbol ","; newlines; expression d (.expr true)))
      (Phrase.moreText xs ++ c :: rest) (fun ts => Term.checkAll ts =
        .ok (Phrase.exprs xs)) (c :: rest) := by
    have within :=
      moreText_yields hxs member d rest (Phrase.moreText xs ++ c :: rest)
        (by simp) []
    have steps : Yields (Phrase.depthAll xs ≤ d) (steps (fun found => do
        let t ← (do blank; symbol ","; newlines; expression d (.expr true))
        Parser.pure (t :: found)) []) (Phrase.moreText xs ++ c :: rest)
        (fun ts => ∃ more, ts = more.reverse ++ [] ∧
          Term.checkAll more = .ok (Phrase.exprs xs)) (c :: rest) :=
      ⟨within.finds, within.sinks⟩
    refine steps.andThen ?_
    rintro - _ ⟨more, rfl, checked⟩
    refine finds_pure ?_
    rwa [List.append_nil, List.reverse_reverse]
  rw [Phrase.depthAll, Phrase.exprs]
  refine ((hx.enclosed d _ (moreText_closes member xs rest)).bind
    fun _ t means => ?_).iff Nat.max_le.symm
  refine others.map fun ts checked => ?_
  simp only [Means] at means
  rw [Term.checkAll, means, checked]
  rfl

end Lists

/-! ## Targets -/

def Spot.Reads (s : Spot) : Prop :=
  ∀ (d : Nat) (rest : List Char), bounded rest = true →
    Yields (s.depth ≤ d) (fieldTarget (expression d)) (s.text ++ rest)
      (·.Means s.place) rest ∨
    Misses (fieldTarget (expression d)) (s.text ++ rest) ∧
    Misses (closedPrimary (expression d)) (s.text ++ rest) ∧
    Yields (s.depth ≤ d) (namedTarget (expression d)) (s.text ++ rest)
      (·.Means s.place) rest

section Targets

variable {name : FreeName}

theorem FreeName.fieldTarget_misses (name : FreeName) :
    Misses (fieldTarget sub) (name.val.toList ++ rest) := by
  obtain ⟨d, r, text, start⟩ := name.start
  have other : d ≠ '$' := by
    rintro rfl
    contradiction
  rw [text]
  exact fieldTarget_misses_at other

theorem closedPrimary_of_start (start : isNameStart c = true) :
    Agree (closedPrimary sub) (getlineTerm sub <|> builtinCall sub <|>
      bareBuiltin <|> functionCall sub) (c :: cs) := by
  have outside : ∀ b ∈ ['.', '"', '/', '('], isNameStart b = false := by decide
  have other : ∀ b ∈ ['.', '"', '/', '('], c ≠ b := by
    rintro b member rfl
    rw [outside c member] at start
    contradiction
  exact closedPrimary_of_word (isDigit_of_nameStart start) (other _ (by decide))
    (other _ (by decide)) (other _ (by decide)) (other _ (by decide))

/-- A name that is no keyword and no name of a built-in function can only be
that of a function that is called. -/
theorem FreeName.closedPrimary_eq (name : FreeName) (ends : isBreak c = true) :
    Agree (closedPrimary sub) (functionCall sub) (name.val.toList ++ c ::
      rest) := by
  have inside := isFreeName_inside name.property
  have free := isFreeName_other name.property
  have taken : ["getline"].contains name.val = false ∧
      builtinNames.contains name.val = false := by
    simp only [List.contains_eq_mem, List.mem_append, decide_eq_false_iff_not,
      not_or] at free ⊢
    refine ⟨fun member => free.1 ?_, free.2⟩
    rw [List.mem_singleton.1 member]
    decide
  obtain ⟨d, r, text, start⟩ := name.start
  have first :
      Agree (closedPrimary sub) (getlineTerm sub <|> builtinCall sub <|>
        bareBuiltin <|> functionCall sub) (name.val.toList ++ c :: rest) := by
    rw [text]
    exact closedPrimary_of_start start
  refine first.trans ?_
  refine (token_misses (scanWord_of_other inside ends
    taken.1)).bind.orElse.trans ?_
  refine (builtinName_misses_word inside taken.2 ends).bind.orElse.trans ?_
  exact (builtinName_misses_word inside taken.2 ends).bind.orElse

theorem FreeName.closedPrimary_misses (name : FreeName)
    (ends : isBreak c = true) (other : c ≠ '(') :
    Misses (closedPrimary sub) (name.val.toList ++ c :: rest) := by
  refine (name.closedPrimary_eq ends).misses ?_
  refine (finds_name name.property ends).bind_misses fun _ _ => ?_
  exact (symbol_misses_at (by
    simpa [startOtherwise] using other.symm)).bind.bind

theorem reads_variable (name : FreeName) : (Spot.variable name).Reads := by
  intro d rest bound
  obtain ⟨b, r, rfl, ends, other⟩ := bounded_head bound
  rw [Spot.text, Spot.place, Spot.depth]
  refine .inr ⟨name.fieldTarget_misses, name.closedPrimary_misses ends other,
    Finds.fitting (Nat.zero_le d) ?_⟩
  have noElement : Misses (arrayElement (expression d))
      (name.val.toList ++ b :: r) :=
    (finds_name name.property ends).bind_misses fun _ _ =>
      (bounded_subscript bound).bind
  refine noElement.orElse.finds ?_
  refine (finds_name name.property ends).bind fun word same => ?_
  have uncalled :
      Finds (Parser.requireSilently fun rest => rest.head? != some '(') (b :: r)
        (fun _ => True) (b :: r) := by
    intro offset
    refine ⟨(), offset, ?_, trivial⟩
    simp [Parser.requireSilently, other]
  refine uncalled.bind fun _ _ => finds_pure ?_
  rw [Target.Means, Target.check, same]

theorem subscriptOf_keys (e : Expr) (more : List Phrase) :
    subscriptOf (e :: Phrase.exprs more) =
      match more with
      | [] => keyParts e
      | second :: more => e :: second.expr :: Phrase.exprs more := by
  cases more with
  | nil =>
      rw [Phrase.exprs]
      exact subscriptOf_single e
  | cons second more =>
      rw [Phrase.exprs]
      cases e <;> rfl

theorem reads_element (array : FreeName) {key : Phrase} {more : List Phrase}
    (hkey : key.Reads) (hmore : ∀ x ∈ more, x.Reads) :
    (Spot.element array key more).Reads := by
  intro d rest _
  have text : (Spot.element array key more).text ++ rest = array.val.toList ++
      '[' :: '(' :: (key.text ++ ')' ::
        (Phrase.moreText more ++ ']' :: rest)) := by
    rw [Spot.text]
    simp only [List.cons_append, List.append_assoc, List.nil_append]
  have depth : (Spot.element array key more).depth =
      Phrase.depthAll (key :: more) := by
    rw [Spot.depth, Phrase.depthAll]
  have keys : Yields (Phrase.depthAll (key :: more) ≤ d)
      (subscript (expression d)) ('[' :: '(' ::
        (key.text ++ ')' :: (Phrase.moreText more ++ ']' :: rest)))
      (fun ts => Term.checkAll ts = .ok (Phrase.exprs (key :: more))) rest := by
    refine (Source.finds_gap .line rfl).yields fun _ _ => ?_
    refine (finds_symbol "[" _).yields fun _ _ => ?_
    refine (Source.finds_gap .lines rfl).yields fun _ _ => ?_
    refine (exprList_yields hmore (by decide) hkey d rest).andThen
      fun _ ts checked => ?_
    refine (Source.finds_gap .lines rfl).bind fun _ _ => ?_
    exact (finds_symbol "]" _).bind fun _ _ => finds_pure checked
  rw [text, depth]
  refine .inr ⟨array.fieldTarget_misses,
    array.closedPrimary_misses (by decide) (by decide), Yields.orElse ?_⟩
  refine (finds_name array.property (by decide)).yields fun word same => ?_
  refine keys.map fun ts checked => ?_
  have place : (Spot.element array key more).place =
      .element array (subscriptOf (Phrase.exprs (key :: more))) := by
    rw [Phrase.exprs, subscriptOf_keys]
    cases more <;> rw [Spot.place]
  rw [Target.Means, Target.check, checked, same, place]
  rfl

theorem reads_field {index : Phrase} (h : index.Reads) :
    (Spot.field index).Reads := by
  intro d rest _
  have text : (Spot.field index).text ++ rest = '$' :: '(' ::
      (index.text ++ ')' :: rest) := by
    rw [Spot.text]
    simp only [List.cons_append, List.append_assoc, List.nil_append]
  have primary : Yields (index.depth + 1 ≤ d) (expression d .field)
      ('(' :: (index.text ++ ')' :: rest)) (Means index.expr) rest := by
    refine Yields.nest .field (fun d => ?_) d
    refine (fieldTarget_misses_at (by decide)).bind.orElse.yields ?_
    exact (closedPrimary_of_paren (h.group d rest)).orElse
  rw [text, Spot.depth]
  refine .inl ?_
  refine (finds_symbol "$" _).yields fun _ _ => ?_
  refine (Source.finds_gap .line rfl).yields fun _ _ => ?_
  have part :
      Yields (index.depth + 1 ≤ d) (preIncrement (expression d) <|>
        unaryTerm (expression d) <|> expression d .field)
        ('(' :: (index.text ++ ')' :: rest)) (Means index.expr) rest := by
    refine (stepOps_misses_at (by decide) (by decide)).bind.orElse.yields ?_
    exact (unaryOps_misses_at (by decide) (by decide)
      (by decide)).bind.orElse.yields primary
  refine part.map fun t means => ?_
  simp only [Means] at means
  rw [Target.Means, Target.check, means, Spot.place]
  rfl

variable {s : Spot} (h : s.Reads) (d : Nat) (bound : bounded rest = true)

include h bound

theorem Spot.Reads.target :
    Yields (s.depth ≤ d) (target (expression d)) (s.text ++ rest)
      (·.Means s.place) rest := by
  rcases h d rest bound with found | ⟨missed, -, found⟩
  · exact found.orElse
  · exact missed.orElse.yields found

theorem Spot.Reads.field :
    Yields (s.depth + 1 ≤ d) (expression d .field) (s.text ++ rest)
      (Means (.read s.place)) rest := by
  refine Yields.nest .field (fun d => ?_) d
  rcases h d rest bound with found | ⟨missed, closed, found⟩
  · exact (found.map fun _ means => means.read).orElse
  · exact missed.bind.orElse.yields
      (closed.orElse.yields (found.map fun _ means => means.read))

end Targets

end Awk.Source
