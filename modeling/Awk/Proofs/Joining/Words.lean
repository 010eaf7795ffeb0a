import Awk.Proofs.Joining.Levels

/-!
# Words at the front of a text

What an expression leaves that starts with a word: nothing is found if the word
is a keyword, `getline` apart, and if it is a name with nothing behind it that
an expression goes on with, apart from `in` and another name, the rest behind it
is left.
-/

namespace Awk.Source

open Awk.Source.Parser (Scanner token requireSilently stepsWithin)

variable {α β : Type} {c : Char} {cs : List Char} {d : Nat} {sub : Levels}
    {word : String}

/-! ## What is left -/

def Ends (p : Parser α) (cs : List Char) (Q : List Char → Prop) : Prop :=
  ∀ offset a next, (p ⟨cs, offset⟩).result = .found a next → Q next.rest

section Ends

variable {p q : Parser α} {f : α → Parser β} {Q Q' : List Char → Prop}

theorem Never.ends (h : Never p cs) : Ends p cs Q :=
  fun offset a next found => (h offset a next found).elim

theorem ends_pure {a : α} (known : Q cs) : Ends (pure a) cs Q := by
  intro offset b next found
  cases found
  exact known

theorem Ends.imp (h : Ends p cs Q) (weaker : ∀ rest, Q rest → Q' rest) :
    Ends p cs Q' :=
  fun offset a next found => weaker _ (h offset a next found)

theorem Ends.bind (first : Ends p cs Q)
    (second : ∀ a rest, Q rest → Ends (f a) rest Q') :
    Ends (p >>= f) cs Q' := by
  intro offset b next found
  obtain ⟨a, mid, here, behind⟩ := bind_eq_found found
  exact second a mid.rest (first offset a mid here) mid.offset b next behind

theorem Ends.orElse (hp : Ends p cs Q) (hq : Ends q cs Q) :
    Ends (p <|> q) cs Q := by
  intro offset a next found
  rw [result_orElse] at found
  rcases Found.elim_eq_found found with ⟨b, mid, first, same⟩ | ⟨-, second⟩
  · cases same
    exact hp offset a next first
  · exact hq offset a next second

theorem Agree.ends (agree : Agree p q cs) (h : Ends q cs Q) : Ends p cs Q := by
  intro offset a next found
  rw [agree offset] at found
  exact h offset a next found

theorem Ends.gap {g : Gap} (h : Ends p (g.behind cs) Q) :
    Ends (do gap g; p) cs Q := by
  intro offset a next found
  rw [result_gap_bind] at found
  exact h _ a next found

theorem ends_token {scan : Scanner} {n : Nat} (scanned : scan cs = some n) :
    Ends (token scan) cs (· = cs.drop n) := by
  intro offset a next found
  obtain ⟨m, scanned', rest⟩ := Leaves.token ⟨offset, next, found, rfl⟩
  obtain rfl : n = m := Option.some.inj (scanned.symm.trans scanned')
  exact rest

theorem ends_stepsWithin {step : α → Parser α}
    (h : ∀ a rest, Q rest → Ends (step a) rest Q) (start : Q cs)
    (bound : List Char) (a : α) : Ends (stepsWithin step bound a) cs Q := by
  induction bound generalizing cs a with
  | nil => exact ends_pure start
  | cons b bound ih =>
      intro offset a' next found
      rw [result_stepsWithin] at found
      split at found
      · cases found
        exact start
      · rcases Found.elim_eq_found found with ⟨b, mid, first, rest⟩ | ⟨-, last⟩
        · exact ih (h a cs start offset b mid first) b mid.offset a' next rest
        · cases last
          exact start

theorem Ends.leftGrouped {inner : Parser Term} {step : Term → Parser Term}
    (first : Ends inner cs Q) (h : ∀ left rest, Q rest →
      Ends (step left) rest Q) : Ends (leftGrouped inner step) cs Q :=
  first.bind fun left rest known offset =>
    ends_stepsWithin h known rest left offset

theorem matching_ends {greater : Bool}
    (unsigned : Misses (operator unaryOps) cs)
    (operand : ∀ e, Ends (expression e .operand) cs Q)
    (refuses : ∀ rest, Q rest → ∀ k < 10, k ≠ 6 → Refuses greater k rest) :
    Ends (matching (expression d) greater) cs Q := by
  have stay (e k : Nat) (below : k < 10) (other : k ≠ 6) (start : Cursor)
      (left : Term) (rest : List Char) (known : Q rest) :
      Ends (tail (expression e) greater start left k) rest Q :=
    (refuses rest known k below other e start left).ends
  have power (e : Nat) : Ends (expression e .power) cs Q := by
    cases e with
    | zero => exact (Sinks.never fun _ => rfl).ends
    | succ e =>
        refine (operand e).bind fun left rest known =>
          Ends.orElse ?_ (ends_pure known)
        exact stay e 0 (by decide) (by decide) ⟨[], 0⟩ left rest known
  have unary (e : Nat) : Ends (expression e .unary) cs Q := by
    cases e with
    | zero => exact (Sinks.never fun _ => rfl).ends
    | succ e => exact unsigned.bind.never.ends.orElse (power e)
  have product : Ends (product (expression d)) cs Q :=
    (unary d).leftGrouped (stay d 1 (by decide) (by decide) ⟨[], 0⟩)
  have sum : Ends (sum (expression d)) cs Q :=
    product.leftGrouped (stay d 2 (by decide) (by decide) ⟨[], 0⟩)
  have concatenation : Ends (concatenation (expression d)) cs Q :=
    sum.leftGrouped (stay d 3 (by decide) (by decide) ⟨[], 0⟩)
  have comparison : Ends (comparison (expression d) greater) cs Q := by
    refine Ends.bind (Q := (· = cs)) (fun _ _ _ found => ?_)
      fun start rest same => ?_
    · cases found
      rfl
    · subst same
      refine concatenation.bind fun left rest known => ?_
      rw [← orElse_assoc]
      exact (stay d 4 (by decide) (by decide) start left rest known).orElse
        (ends_pure known)
  exact comparison.leftGrouped (stay d 5 (by decide) (by decide) ⟨[], 0⟩)

theorem expr_ends {greater : Bool} (unsigned : Misses (operator unaryOps) cs)
    (operand : ∀ e, Ends (expression e .operand) cs Q)
    (refuses : ∀ rest, Q rest → ∀ k < 10, k ≠ 6 → Refuses greater k rest)
    (member : ∀ left rest, Q rest → Ends (memberStep left) rest Q')
    (closed : ∀ rest, Q' rest → ∀ k < 10, Refuses greater k rest) :
    Ends (expression d (.expr greater)) cs fun rest => Q rest ∨ Q' rest := by
  cases d with
  | zero => exact (Sinks.never fun _ => rfl).ends
  | succ d =>
      have leave (k : Nat) (below : k < 10) (other : k ≠ 6) (left : Term)
          (rest : List Char) (known : Q rest ∨ Q' rest) :
          Ends (tail (expression d) greater ⟨[], 0⟩ left k) rest fun rest =>
            Q rest ∨ Q' rest := by
        refine Never.ends ?_
        obtain known | known := known
        · exact refuses rest known k below other d _ left
        · exact closed rest known k below d _ left
      have membership : Ends (membership (expression d) greater) cs fun rest =>
        Q rest ∨ Q' rest := by
        refine ((matching_ends unsigned operand refuses).imp fun rest =>
          Or.inl).leftGrouped fun left rest known => ?_
        obtain known | known := known
        · exact (member left rest known).imp fun _ => .inr
        · exact (closed rest known 6 (by decide) d ⟨[], 0⟩ left).ends
      have conjunction :
          Ends (conjunction (expression d) greater) cs fun rest => Q rest ∨
          Q' rest :=
        membership.leftGrouped (leave 7 (by decide) (by decide))
      have disjunction :
          Ends (disjunction (expression d) greater) cs fun rest => Q rest ∨
          Q' rest :=
        conjunction.leftGrouped (leave 8 (by decide) (by decide))
      refine disjunction.bind fun left rest known => ?_
      rw [← orElse_assoc]
      exact (leave 9 (by decide) (by decide) left rest known).orElse
        (ends_pure known)

end Ends

/-! ## Letters -/

theorem ne_of_nameStart (start : isNameStart c = true) {b : Char}
    (other : isNameStart b = false) : c ≠ b := by
  rintro rfl
  exact Bool.false_ne_true (other.symm.trans start)

section Letters

variable {r : List Char} {Q : List Char → Prop} (start : isNameStart c = true)

include start

theorem unsigned_of_letter : Misses (operator unaryOps) (c :: r) :=
  unaryOps_misses_at (ne_of_nameStart start (by decide))
    (ne_of_nameStart start (by decide)) (ne_of_nameStart start (by decide))

theorem operand_ends_letter (command : Misses (keyword "getline") (c :: r))
    (builtin : Misses builtinName (c :: r))
    (named : Ends (namedTarget sub) (c :: r) Q)
    (stepped : ∀ t rest, Q rest → Ends (steppedTarget t) rest Q)
    (call : Ends (functionCall sub) (c :: r) Q) :
    Ends (operand sub) (c :: r) Q := by
  have plus : c ≠ '+' := ne_of_nameStart start (by decide)
  have minus : c ≠ '-' := ne_of_nameStart start (by decide)
  have field : Misses (fieldTarget sub) (c :: r) :=
    fieldTarget_misses_at (ne_of_nameStart start (by decide))
  have primary : Ends (closedPrimary sub) (c :: r) Q := by
    refine (closedPrimary_of_word (isDigit_of_nameStart start)
      (ne_of_nameStart start (by decide)) (ne_of_nameStart start (by decide))
      (ne_of_nameStart start (by decide))
      (ne_of_nameStart start (by decide))).ends ?_
    exact command.bind.never.ends.orElse
      (builtin.bind.never.ends.orElse (builtin.bind.never.ends.orElse call))
  refine (stepOps_misses_at plus minus).bind.never.ends.orElse
    (Ends.orElse ?_ primary)
  exact (field.never.ends.orElse named).bind stepped

end Letters

/-! ## Keywords -/

structure Spells (word : String) (cs : List Char) : Prop where
  run : wordRun cs = word.toList
  ends : endsWord cs = true

theorem spells_of_scan {words : List String} {n : Nat}
    (h : scanWord words cs = some n) : ∃ word ∈ words, Spells word cs := by
  obtain ⟨word, inside, -, run, ends⟩ :=
    scanWord_isSome (Option.isSome_iff_exists.2 ⟨n, h⟩)
  exact ⟨word, inside, run, ends⟩

theorem Leaves.spells {words : List String} {w : Word} {rest : List Char}
    (h : Leaves (Parser.token (scanWord words)) cs w rest) :
    ∃ word ∈ words, Spells word cs := by
  obtain ⟨n, scanned, -⟩ := h.token
  exact spells_of_scan scanned

theorem Leaves.keyword {w : Word} {rest : List Char}
    (h : Leaves (Source.keyword word) cs w rest) : Spells word cs := by
  have left : Leaves (Parser.token (scanWord [word])) cs w rest := h
  obtain ⟨other, inside, spells⟩ := left.spells
  rw [List.mem_singleton] at inside
  exact inside ▸ spells

namespace Spells

theorem scan (h : Spells word cs) {words : List String}
    (inside : word ∈ words) : (scanWord words cs).isSome = true := by
  simp [scanWord, h.run, h.ends, inside]

theorem misses (h : Spells word cs) {words : List String}
    (other : word ∉ words) : Misses (token (scanWord words)) cs :=
  token_misses (by simp [scanWord, h.run, other])

theorem skip {α : Type} {other : String} {f : Word → Parser α} {q : Parser α}
    (h : Spells word cs) (differs : word ∉ [other]) (behind : Never q cs) :
    Never ((keyword other >>= f) <|> q) cs :=
  (h.misses differs).never.bind.orElse behind

theorem unnamed (h : Spells word cs) (key : word ∈ keywords) :
    Misses name cs := by
  refine token_misses ?_
  rw [scanFreeName, if_pos (h.scan (List.mem_append_left _ key))]

theorem head (h : Spells word cs) (key : word ∈ keywords) :
    ∃ c r, cs = c :: r ∧ isNameStart c = true := by
  have starts : ∀ word ∈ keywords, word.toList.head?.any isNameStart =
      true := by decide
  have start := starts word key
  rw [← h.run] at start
  cases cs with
  | nil => contradiction
  | cons c r =>
      refine ⟨c, r, rfl, ?_⟩
      rw [wordRun, List.takeWhile_cons] at start
      split at start
      · exact start
      · contradiction

theorem head_ne (h : Spells word cs) (key : word ∈ keywords) {b : Char}
    (other : isNameStart b = false) : cs.head? ≠ some b := by
  obtain ⟨c, r, rfl, start⟩ := h.head key
  simpa using ne_of_nameStart start other

theorem expr_never (h : Spells word cs) (key : word ∈ keywords)
    (other : word ≠ "getline") (greater : Bool) :
    Never (expression d (.expr greater)) cs := by
  have unbuilt : ∀ word ∈ keywords, word ∉ builtinNames := by decide
  have unnamed := h.unnamed key
  have command : Misses (keyword "getline") cs :=
    h.misses (by simpa using other)
  have builtin : Misses builtinName cs := h.misses (unbuilt word key)
  obtain ⟨c, r, rfl, start⟩ := h.head key
  have operand (e : Nat) : Ends (expression e .operand) (c :: r) fun _ =>
    False := by
    cases e with
    | zero => exact (Sinks.never fun _ => rfl).ends
    | succ e =>
        refine operand_ends_letter start command builtin ?_
          (fun _ _ => False.elim) unnamed.bind.never.ends
        exact (unnamed.bind.orElse.misses unnamed.bind).never.ends
  have ends : Ends (expression d (.expr greater)) (c :: r) fun _ => False ∨
      False :=
    expr_ends (unsigned_of_letter start) operand (fun _ => False.elim)
      (fun _ _ => False.elim) fun _ => False.elim
  exact fun offset a next found => (ends offset a next found).elim id id

end Spells

/-! ## Names -/

section Names

variable {n : Nat} {r : List Char}

theorem start_of_free (scanned : scanFreeName cs = some n) :
    ∃ c r, cs = c :: r ∧ isNameStart c = true := by
  unfold scanFreeName at scanned
  split at scanned
  · contradiction
  · unfold scanName at scanned
    cases cs with
    | nil => contradiction
    | cons c r =>
        simp only [List.head?_cons] at scanned
        split at scanned
        · exact ⟨c, r, rfl, by assumption⟩
        · contradiction

theorem unreserved_of_free (scanned : scanFreeName cs = some n)
    {words : List String} (inside : ∀ word ∈ words,
      word ∈ keywords ++ builtinNames) :
    Misses (token (scanWord words)) cs := by
  unfold scanFreeName at scanned
  split at scanned
  · contradiction
  · rename_i unreserved
    refine token_misses ?_
    by_contra there
    obtain ⟨m, there⟩ := Option.ne_none_iff_exists'.1 there
    obtain ⟨word, member, spells⟩ := spells_of_scan there
    exact unreserved (spells.scan (inside word member))

theorem operand_ends_name (scanned : scanFreeName cs = some n)
    (leads : behindGap (cs.drop n) = c :: r) (stop : c ∈ ['\\', 'i']) :
    Ends (expression d .operand) cs (· = cs.drop n) := by
  have facts : ∀ c ∈ ['\\', 'i'], c ≠ '+' ∧ c ≠ '-' ∧ c ≠ '(' ∧
      startOtherwise [(⟨"[", [], ()⟩ : Operator Unit)] c = true := by
    decide
  obtain ⟨plus, minus, paren, bracket⟩ := facts c stop
  have named := ends_token scanned
  have command : Misses (keyword "getline") cs :=
    unreserved_of_free scanned (by decide)
  have builtin : Misses builtinName cs := unreserved_of_free scanned (by decide)
  obtain ⟨b, s, rfl, start⟩ := start_of_free scanned
  cases d with
  | zero => exact (Sinks.never fun _ => rfl).ends
  | succ d =>
      refine operand_ends_letter start command builtin (Ends.orElse ?_ ?_) ?_ ?_
      · refine named.bind fun _ rest same => Never.ends (Never.bind (.gap ?_))
        rw [same, Gap.behind_line, leads]
        exact (symbol_misses_at bracket).never.bind
      · refine named.bind fun _ rest same =>
          Ends.bind (Q := (· = rest)) (fun offset _ next found => ?_)
            fun _ rest' same' => ends_pure (same'.trans same)
        unfold Parser.requireSilently at found
        split at found
        · cases found
          rfl
        · contradiction
      · refine fun target rest same =>
          Ends.orElse (Never.ends (.gap ?_)) (ends_pure same)
        rw [same, Gap.behind_line, leads]
        exact (stepOps_misses_at plus minus).never.bind
      · refine named.bind fun _ rest same =>
          Never.ends (Never.bind (Never.bind fun offset _ next found => ?_))
        obtain ⟨rest', front⟩ := symbol_found found
        change rest = '(' :: rest' at front
        rw [← same, front, behindGap_solid (by decide)] at leads
        exact paren (List.cons.inj leads).1.symm

theorem expr_ends_name {Q : List Char → Prop}
    (scanned : scanFreeName cs = some n)
    (leads : behindGap (cs.drop n) = c :: r) (stop : c ∈ ['\\', 'i'])
    (refuses : ∀ k < 10, k ≠ 6 → Refuses true k (cs.drop n))
    (member : ∀ left, Ends (memberStep left) (cs.drop n) Q)
    (closed : ∀ rest, Q rest → ∀ k < 10, Refuses true k rest) :
    Ends (expression d (.expr true)) cs fun rest => rest = cs.drop n ∨
    Q rest := by
  have unsigned : Misses (operator unaryOps) cs := by
    obtain ⟨b, s, rfl, start⟩ := start_of_free scanned
    exact unsigned_of_letter start
  refine expr_ends unsigned (fun e => operand_ends_name scanned leads stop) ?_
    ?_ closed
  · rintro rest rfl
    exact refuses
  · rintro left rest rfl
    exact member left

end Names

end Awk.Source
