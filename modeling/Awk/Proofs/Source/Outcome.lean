import Awk.Proofs.Source.Ladder

/-!
# Outcomes of parsers

What a combinator finds is said by what its parts find: by one function that
goes on from what was found, does something else where nothing was found, and
lets a text that is nested too deeply be.  Beside it there is what follows a gap
on a line, on which it depends which operator goes on with an expression.
-/

namespace Awk.Source

open Awk.Source.Parser (optional steps stepsWithin)

variable {α β : Type}

/-! ## Combinators -/

def Found.elim (r : Found α) (goOn : α → Cursor → Found β)
    (otherwise : Found β) : Found β :=
  match r with
  | .found a next => goOn a next
  | .missed => otherwise
  | .tooDeep => .tooDeep

theorem result_bind (p : Parser α) (f : α → Parser β) (c : Cursor) :
    ((p >>= f) c).result = (p c).result.elim (fun a next => (f a next).result)
      .missed := by
  cases first : (p c).result with
  | found a next => exact bind_found first
  | missed => exact bind_missed first
  | tooDeep => exact bind_tooDeep first

theorem result_map (p : Parser α) (g : α → β) (c : Cursor) :
    ((do let a ← p; return g a : Parser β) c).result =
      (p c).result.elim (fun a next => .found (g a) next) .missed :=
  result_bind p _ c

theorem result_orElse (p q : Parser α) (c : Cursor) :
    ((p <|> q) c).result = (p c).result.elim .found (q c).result := by
  change (Parser.orElse p q c).result = _
  unfold Parser.orElse
  generalize p c = attempt
  obtain ⟨result, reach⟩ := attempt
  cases result <;> rfl

theorem pure_found (a : α) (c : Cursor) :
    ((pure a : Parser α) c).result ≠ .missed := nofun

theorem orElse_found {p q : Parser α} {c : Cursor}
    (h : (q c).result ≠ .missed) : ((p <|> q) c).result ≠ .missed := by
  rw [result_orElse]
  cases (p c).result with
  | found a next => exact pure_found a next
  | missed => exact h
  | tooDeep => simp [Found.elim]

theorem result_optional (p : Parser α) (c : Cursor) :
    (optional p c).result =
      if c.rest.isEmpty then .found none c
      else (p c).result.elim (fun a next => .found (some a) next)
        (.found none c) := by
  unfold Parser.optional
  split
  · rfl
  · generalize p c = attempt
    obtain ⟨result, reach⟩ := attempt
    cases result <;> rfl

theorem result_stepsWithin (step : α → Parser α) (b : Char) (bound : List Char)
    (a : α) (c : Cursor) :
    (stepsWithin step (b :: bound) a c).result =
      if c.rest.isEmpty then .found a c
      else (step a c).result.elim (fun a' next =>
        (stepsWithin step bound a' next).result) (.found a c) := by
  rw [stepsWithin]
  dsimp only
  split
  · rfl
  · generalize step a c = attempt
    obtain ⟨result, reach⟩ := attempt
    cases result <;> rfl

theorem stepsWithin_found (step : α → Parser α) (bound : List Char) (a : α)
    (c : Cursor) :
    (stepsWithin step bound a c).result ≠ .missed := by
  induction bound generalizing a c with
  | nil => simp [stepsWithin, Parser.pure]
  | cons b bound ih =>
      rw [result_stepsWithin]
      split
      · simp
      · cases (step a c).result with
        | found a' next => exact ih a' next
        | missed => simp [Found.elim]
        | tooDeep => simp [Found.elim]

theorem stepsWithin_missed {step : α → Parser α} {a : α} {c : Cursor}
    (missed : Misses (step a) c.rest) (bound : List Char) :
    (stepsWithin step bound a c).result = .found a c := by
  cases bound with
  | nil => rfl
  | cons b bound =>
      have missed : (step a c).result = .missed := missed c.offset
      rw [result_stepsWithin, missed]
      split <;> rfl

/-! ## What is found -/

def Always (P : α → Prop) (p : Parser α) : Prop :=
  ∀ c a next, (p c).result = .found a next → P a

theorem Found.elim_eq_found {r : Found α} {goOn : α → Cursor → Found β}
    {otherwise : Found β} {b : β} {next : Cursor}
    (h : r.elim goOn otherwise = .found b next) :
    (∃ a mid, r = .found a mid ∧ goOn a mid = .found b next) ∨ r = .missed ∧
    otherwise = .found b next := by
  cases r with
  | found a mid => exact .inl ⟨a, mid, rfl, h⟩
  | missed => exact .inr ⟨rfl, h⟩
  | tooDeep => contradiction

theorem bind_eq_found {p : Parser α} {f : α → Parser β} {c next : Cursor}
    {b : β} (h : ((p >>= f) c).result = .found b next) :
    ∃ a mid, (p c).result = .found a mid ∧
    (f a mid).result = .found b next := by
  rw [result_bind] at h
  exact (Found.elim_eq_found h).resolve_right fun missed => by simp at missed

namespace Always

variable {P : α → Prop} {p q : Parser α}

theorem pure {a : α} (h : P a) : Always P (Pure.pure a) := by
  intro c b next found
  cases found
  exact h

theorem andThen {Q : β → Prop} {f : α → Parser β} (hp : Always P p)
    (h : ∀ a, P a → Always Q (f a)) : Always Q (p >>= f) := by
  intro c b next found
  obtain ⟨a, mid, first, rest⟩ := bind_eq_found found
  exact h a (hp c a mid first) mid b next rest

theorem bind {Q : β → Prop} {f : α → Parser β} (h : ∀ a, Always Q (f a)) :
    Always Q (p >>= f) :=
  andThen (fun _ _ _ _ => trivial) fun a _ => h a

theorem orElse (hp : Always P p) (hq : Always P q) : Always P (p <|> q) := by
  intro c a next found
  rw [result_orElse] at found
  rcases Found.elim_eq_found found with ⟨b, mid, first, same⟩ | ⟨-, second⟩
  · cases same
    exact hp c a next first
  · exact hq c a next second

theorem stepsWithin {step : α → Parser α} (h : ∀ a, P a → Always P (step a))
    (bound : List Char) {a : α} (start : P a) :
    Always P (stepsWithin step bound a) := by
  induction bound generalizing a with
  | nil => exact pure start
  | cons b bound ih =>
      intro c a' next found
      rw [result_stepsWithin] at found
      split at found
      · cases found
        exact start
      · rcases Found.elim_eq_found found with ⟨b, mid, first, rest⟩ | ⟨-, last⟩
        · exact ih (h a start c b mid first) mid a' next rest
        · cases last
          exact start

theorem steps {step : α → Parser α} (h : ∀ a, P a → Always P (step a)) {a : α}
    (start : P a) : Always P (steps step a) :=
  fun c => stepsWithin h c.rest start c

theorem optional (h : Always P p) :
    Always (fun a => ∀ b ∈ a, P b) (optional p) := by
  intro c a next found
  rw [result_optional] at found
  split at found
  · cases found
    exact nofun
  · rcases Found.elim_eq_found found with ⟨b, mid, first, same⟩ | ⟨-, last⟩
    · cases same
      simpa using h c b next first
    · cases last
      exact nofun

end Always

/-! ## Operators -/

theorem dropFront?_eq_some {front cs rest : List Char}
    (h : Text.dropFront? front cs = some rest) : cs = front ++ rest := by
  induction front generalizing cs with
  | nil =>
      cases h
      rfl
  | cons f front ih =>
      cases cs with
      | nil => contradiction
      | cons c cs =>
          unfold Text.dropFront? at h
          split at h
          · next same => rw [same, ih h, List.cons_append]
          · contradiction

theorem Operator.scan_front {op : Operator α} {cs : List Char}
    (h : (op.scan cs).isSome = true) :
    ∃ rest, cs = op.text.toList ++ rest := by
  unfold Operator.scan at h
  split at h
  · next rest dropped => exact ⟨rest, dropFront?_eq_some dropped⟩
  · contradiction

theorem operator_found {ops : List (Operator α)} {c next : Cursor} {a : α}
    {word : Word} (h : (operator ops c).result = .found (a, word) next) :
    ∃ op ∈ ops, (op.scan c.rest).isSome = true ∧ a = op.meaning ∧
    next = c.drop op.text.length := by
  unfold operator at h
  split at h
  · next op found =>
    cases h
    have there := List.find?_some found
    exact ⟨op, List.mem_of_find?_eq_some found, there, rfl, rfl⟩
  · contradiction

theorem symbol_found {text : String} {c next : Cursor} {u : Unit}
    (h : (symbol text c).result = .found u next) :
    ∃ rest, c.rest = text.toList ++ rest := by
  obtain ⟨found, mid, there, -⟩ := bind_eq_found h
  obtain ⟨op, inside, scanned, -, -⟩ := operator_found there
  cases List.mem_singleton.1 inside
  exact Operator.scan_front scanned

theorem operator_append (ops more : List (Operator α)) (c : Cursor) :
    (operator (ops ++ more) c).result =
      (operator ops c).result.elim .found (operator more c).result := by
  unfold operator
  rw [List.find?_append]
  cases ops.find? fun op => (op.scan c.rest).isSome <;> rfl

/-! ## What follows a gap -/

def behindGap (cs : List Char) : List Char := cs.drop (Gap.line.length false cs)

/-- A gap that ends on the line, and not at its end, ends there whatever it may
cross. -/
theorem Gap.length_eq_line {b : Char} (newline : b ≠ '\n') (semicolon : b ≠ ';')
    (g : Gap) (comment : Bool) (cs r : List Char)
    (leads : cs.drop (Gap.line.length comment cs) = b :: r) :
    g.length comment cs = Gap.line.length comment cs := by
  fun_induction Gap.length Gap.line comment cs with
  | case1 rest inside => contradiction
  | case2 rest outside =>
      cases leads
      contradiction
  | case3 c rest other ih => rw [Gap.length.eq_2 g c rest other, ih leads]
  | case4 rest ih => rw [Gap.length, ih leads]
  | case5 rest ih => rw [Gap.length, ih leads]
  | case6 rest one two ih =>
      rw [Gap.length.eq_5 g _ rest one two, if_pos rfl, ih leads]
  | case7 c rest one two other inside ih =>
      have wider : g.contains c = true := by
        simp only [Gap.contains, Bool.or_eq_true] at inside ⊢
        simp_all
      rw [Gap.length.eq_5 g c rest one two, if_neg other, if_pos wider,
        ih leads]
  | case8 c rest one two other outside =>
      cases leads
      have narrow : ¬g.contains b = true := by
        simp only [Gap.contains, Bool.or_eq_true] at outside ⊢
        simp_all
      rw [Gap.length.eq_5 g b r one two, if_neg other, if_neg narrow]
  | case9 comment => contradiction

theorem finds_behindGap {b : Char} {cs r : List Char}
    (leads : behindGap cs = b :: r) (solid : isSolid b = true) (g : Gap) :
    Finds (gap g) cs (fun _ => True) (b :: r) := by
  intro offset
  have newline : b ≠ '\n' := by
    rintro rfl
    contradiction
  have semicolon : b ≠ ';' := by
    rintro rfl
    contradiction
  refine ⟨(), offset + Gap.line.length false cs, ?_, trivial⟩
  simp only [gap, g.length_eq_line newline semicolon false cs r leads,
    Cursor.drop]
  rw [← leads, behindGap]

def LedBy (b : Char) (cs : List Char) : Prop := ∃ r, behindGap cs = b :: r

theorem LedBy.misses {b : Char} {cs : List Char} (h : LedBy b cs)
    (solid : isSolid b = true) {next : Parser α} (g : Gap)
    (missed : ∀ r, Misses next (b :: r)) : Misses (do gap g; next) cs := by
  obtain ⟨r, leads⟩ := h
  exact (finds_behindGap leads solid g).bind_misses fun _ _ => missed r

end Awk.Source
