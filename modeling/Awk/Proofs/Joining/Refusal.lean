import Awk.Proofs.Joining.Outcome
import Awk.Proofs.Source.Exclusion
import Mathlib.Tactic.IntervalCases

/-!
# Rests that nothing goes on with

A level of the grammar that was tried in vain at the end of a text leaves a rest
that no other level takes up either, since at most one of them can go on there,
and neither does what surrounds an expression.  `tail` is what a level looks for
behind what the next tighter one found, `Dead` says that nothing can be looked
for behind an expression, and `Blocked` that nothing can be looked for behind an
operand.
-/

namespace Awk.Source

open Awk.Source.Parser (Scanner token require optional)

variable {α β : Type} {c : Char} {cs t : List Char} {d d' : Nat} {sub : Levels}

/-! ## Where no expression starts -/

def Opens (cs : List Char) : Prop := cs.head?.any opensExpr = true

theorem Opens.append (newline : OnNewLine t) : Opens (cs ++ t) ↔ Opens cs := by
  cases cs with
  | nil =>
      obtain rfl | ⟨s, rfl⟩ :=
        newline.eq <;> simp [Opens, (by decide : opensExpr '\n' = false)]
  | cons c r => exact Iff.rfl

theorem Gap.Cut.closed {g : Gap} (cut : g.Cut cs) : ¬Opens cs := by
  obtain rfl | ⟨r, rfl⟩ := cut.eq
  · exact Bool.false_ne_true
  · exact Bool.false_ne_true

theorem Opens.head_ne (h : Opens cs) {b : Char} (other : opensExpr b = false) :
    cs.head? ≠ some b := by
  intro leads
  rw [Opens, leads, Option.any_some, other] at h
  contradiction

section Closed

theorem scanPattern_nil (pattern : Except Regex.PatternError Regex.Pattern) :
    scanPattern pattern [] = none := by
  unfold scanPattern
  split
  · contradiction
  · rfl

theorem closedPrimary_misses_nil : Misses (closedPrimary sub) [] := by
  refine (token_misses (by decide)).bind.orElse.misses ?_
  refine (token_misses rfl).bind.orElse.misses ?_
  refine (token_misses rfl).bind.orElse.misses ?_
  refine (token_misses (scanPattern_nil _)).bind.orElse.misses ?_
  refine (token_misses (scanPattern_nil _)).bind.orElse.misses ?_
  have paren : Misses (symbol "(") [] :=
    (operator_misses_nil (c := '\\') (by decide)).bind
  refine paren.bind.orElse.misses ?_
  refine (token_misses (by decide)).bind.orElse.misses ?_
  refine (token_misses (by decide)).bind.orElse.misses ?_
  refine (token_misses (by decide)).bind.orElse.misses ?_
  exact (token_misses (by decide)).bind

theorem name_misses (closed : ¬Opens cs) : Misses name cs := by
  cases cs with
  | nil => exact token_misses (by decide)
  | cons c r =>
      refine name_misses_at ?_
      simp only [Opens, List.head?_cons, Option.any_some, opensExpr,
        opensPrimary] at closed
      simp_all

theorem closedPrimary_misses (closed : ¬Opens cs) :
    Misses (closedPrimary sub) cs := by
  cases cs with
  | nil => exact closedPrimary_misses_nil
  | cons c r =>
      refine closedPrimary_misses_at ?_
      simp only [Opens, List.head?_cons, Option.any_some, opensExpr] at closed
      simp_all

theorem operator_misses_closed {ops : List (Operator α)}
    (inside : ∀ op ∈ ops, op.text.toList.head?.any opensExpr = true)
    (closed : ¬Opens cs) : Misses (operator ops) cs := by
  refine operator_misses_any (List.any_eq_false.2 fun op member there =>
    closed ?_)
  obtain ⟨rest, rfl⟩ := op.scan_front there
  have start := inside op member
  cases text : op.text.toList with
  | nil =>
      rw [text] at start
      contradiction
  | cons f front =>
      rw [text] at start
      exact start

theorem namedTarget_misses (closed : ¬Opens cs) : Misses (namedTarget sub) cs :=
  (name_misses closed).bind.orElse.misses (name_misses closed).bind

theorem fieldTarget_misses (closed : ¬Opens cs) : Misses (fieldTarget sub) cs :=
  (operator_misses_closed (by decide) closed).bind.bind

theorem operand_misses (closed : ¬Opens cs) : Misses (operand sub) cs := by
  have target : Misses (target sub) cs :=
    (fieldTarget_misses closed).orElse.misses (namedTarget_misses closed)
  refine (operator_misses_closed (by decide) closed).bind.orElse.misses ?_
  exact target.bind.orElse.misses (closedPrimary_misses closed)

theorem field_misses (closed : ¬Opens cs) : Misses (field sub) cs := by
  refine (fieldTarget_misses closed).bind.orElse.misses ?_
  exact (closedPrimary_misses closed).orElse.misses
    (namedTarget_misses closed).bind

def Level.height : Level → Nat
  | .expr _ => 4
  | .unary => 3
  | .power => 2
  | .operand => 1
  | .field => 1

theorem expression_misses (closed : ¬Opens cs) {level : Level}
    (deep : level.height ≤ d) : Misses (expression d level) cs := by
  have operand (d : Nat) : Misses (expression (d + 1) .operand) cs :=
    operand_misses closed
  have power (d : Nat) : Misses (expression (d + 2) .power) cs :=
    (operand d).bind
  have unary (d : Nat) : Misses (expression (d + 3) .unary) cs :=
    (operator_misses_closed (by decide) closed).bind.orElse.misses (power d)
  obtain ⟨d, rfl⟩ := Nat.exists_eq_add_of_le' deep
  cases level with
  | expr greater =>
      have comparison : Misses (comparison (expression (d + 3)) greater) cs :=
        finds_here.bind_misses fun _ _ => (unary d).bind.bind.bind.bind
      exact comparison.bind.bind.bind.bind.bind
  | unary => exact unary d
  | power => exact power d
  | operand => exact operand d
  | field => exact field_misses closed

theorem expression_sinks (closed : ¬Opens cs) {level : Level}
    (shallow : d < level.height) : Sinks (expression d level) cs := by
  have zero (level : Level) : Sinks (expression 0 level) cs := fun _ => rfl
  have power (d : Nat) (shallow : d < 2) : Sinks (expression d .power) cs := by
    cases d with
    | zero => exact zero _
    | succ d =>
        obtain rfl : d = 0 := by omega
        exact (zero _).bind
  have unary (d : Nat) (shallow : d < 3) : Sinks (expression d .unary) cs := by
    cases d with
    | zero => exact zero _
    | succ d =>
        exact (operator_misses_closed (by decide) closed).bind.orElse.sinks
          (power d (by omega))
  cases d with
  | zero => exact zero level
  | succ d =>
      cases level with
      | expr greater =>
          simp only [Level.height] at shallow
          have unary : Sinks (expression d .unary) cs := unary d (by omega)
          have comparison : Sinks (comparison (expression d) greater) cs :=
            finds_here.bind_sinks fun _ _ => unary.bind.bind.bind.bind
          exact comparison.bind.bind.bind.bind.bind
      | unary => exact unary _ shallow
      | power => exact power _ shallow
      | operand => simp [Level.height] at shallow
      | field => simp [Level.height] at shallow

theorem expression_never (closed : ¬Opens cs) (level : Level) :
    Never (expression d level) cs := by
  by_cases deep : level.height ≤ d
  · exact (expression_misses closed deep).never
  · exact (expression_sinks closed (by omega)).never

theorem expression_joins_closed {R : Term → Term → Prop} {D : List Char → Prop}
    {F : Prop} (newline : OnNewLine t) (closed : ¬Opens cs) (le : d ≤ d')
    (level : Level) :
    Joins t R D F (expression d level) (expression d' level) cs := by
  by_cases deep : level.height ≤ d
  · refine (expression_misses closed deep).joins
      (expression_misses ?_ (by omega))
    rwa [Opens.append newline]
  · exact (expression_sinks closed (by omega)).joins

theorem idle_expression (g : Gap) (level : Level) :
    Idle g (expression d level) :=
  fun _ cut => expression_never cut.closed level

end Closed

/-! ## What follows an operand -/

def tail (sub : Levels) (greater : Bool) (start : Cursor) (left : Term) :
    Nat → Parser Term
  | 0 => infixStep .line powerOps (unaryTerm sub <|> sub .power) left
  | 1 => infixStep .lines mulOps (sub .unary) left
  | 2 => infixStep .lines addOps (product sub) left
  | 3 => concatStep sub left
  | 4 => pipeStep sub start <|> compareStep sub greater left
  | 5 => infixStep .line matchOps (comparison sub greater) left
  | 6 => memberStep left
  | 7 => infixStep .lines [⟨"&&", [], .and⟩] (membership sub greater) left
  | 8 => infixStep .lines [⟨"||", [], .or⟩] (conjunction sub greater) left
  | _ => assignStep sub greater left <|> ternaryStep sub greater left

def Refuses (greater : Bool) (k : Nat) (cs : List Char) : Prop :=
  ∀ d start left, Never (tail (expression d) greater start left k) cs

theorem infixStep_never {g : Gap} {ops : List (Operator BinaryOp)}
    {right : Parser Term} {left : Term}
    (h : ops.any (fun op => (op.scan (behindGap cs)).isSome) = false) :
    Never (infixStep g ops right left) cs :=
  .gap (operator_misses_any h).never.bind

theorem sum_never (h : Never (expression d .unary) cs) :
    Never (sum (expression d)) cs := h.bind.bind

theorem concatenation_never (h : Never (expression d .unary) cs) :
    Never (concatenation (expression d)) cs := (sum_never h).bind

theorem concatStep_never {left : Term}
    (h : startsOperator (behindGap cs) = true ∨
      Never (expression d .unary) (behindGap cs)) :
    Never (concatStep (expression d) left) cs := by
  refine .gap (never_bind fun offset _ next found => ?_)
  unfold Parser.require at found
  split at found
  · rename_i free
    cases found
    obtain starts | never := h
    · simp [starts] at free
    · exact (sum_never never).bind
  · contradiction

theorem pipeStep_never {start : Cursor}
    (h : (Operator.mk "|" ['|'] ()).scan (behindGap cs) = none) :
    Never (pipeStep sub start) cs :=
  .gap (operator_misses (by simpa using h)).bind.never.bind

theorem refuses_of_goesOn {greater : Bool} {k : Nat} (le : k < 10)
    (h : goesOn k (behindGap cs) = false) : Refuses greater k cs := by
  intro d start left
  interval_cases k
  · exact infixStep_never h
  · exact infixStep_never h
  · exact infixStep_never h
  · simp only [goesOn, Bool.and_eq_false_iff, Bool.not_eq_false'] at h
    refine concatStep_never (h.imp id fun closed => expression_never ?_ _)
    rw [Opens, closed]
    exact Bool.false_ne_true
  · simp only [goesOn, Bool.or_eq_false_iff, Option.isSome_eq_false_iff,
      Option.isNone_iff_eq_none] at h
    refine (pipeStep_never h.1).orElse (infixStep_never ?_)
    cases greater with
    | true => exact h.2
    | false =>
        have fewer := h.2
        simp only [compareOps, List.any_append, Bool.or_eq_false_iff] at fewer ⊢
        exact ⟨fewer.1, rfl⟩
  · exact infixStep_never h
  · exact .gap (token_misses (by simpa [goesOn] using h)).never.bind
  · exact infixStep_never h
  · exact infixStep_never h
  · simp only [goesOn, Bool.or_eq_false_iff] at h
    refine Never.orElse (.gap (operator_misses_any h.1).never.bind)
      (.gap (Misses.bind ?_).never.bind)
    exact operator_misses (by simpa using h.2)

/-! ## Dead rests -/

def followers : List Char := ['\n', ';', '\x7d', ')', ']', ':', ',', '\x7b']

def Astray (cs : List Char) : Prop := ∃ c r, behindGap cs = c :: r ∧
    c ∉ followers

/-- Nothing can stand behind an expression; in the arguments of a print
statement, not even the place the output goes to. -/
structure Dead (greater : Bool) (cs : List Char) : Prop where
  astray : Astray cs
  refuses : ∀ k < 10, Refuses greater k cs
  redirect : greater = false → ∀ d, Never (redirect (expression d)) cs

def fileOps : List (Operator Unit) := [⟨"<", ['='], ()⟩]

def fileStep (sub : Levels) : Parser Term := do
  blank
  symbolNotBefore "<" ['=']
  blank
  sub .operand

structure Blocked (cs : List Char) : Prop where
  dead : ∀ greater, Dead greater cs
  step : Misses (operator stepOps) (behindGap cs)
  file : ∀ d, Never (fileStep (expression d)) cs

theorem Astray.behind (h : Astray cs) (g : Gap) :
    ∃ c r, g.behind cs = c :: r ∧ c ∉ followers := by
  obtain ⟨c, r, leads, other⟩ := h
  refine ⟨c, r, ?_, other⟩
  rw [Gap.behind, g.length_eq_line (by rintro rfl; simp [followers] at other)
    (by rintro rfl; simp [followers] at other) false cs r leads]
  exact leads

theorem Astray.never {p : Parser α} (h : Astray cs) (g : Gap)
    (refused : ∀ c r, c ∉ followers → Never p (c :: r)) :
    Never (do gap g; p) cs := by
  obtain ⟨c, r, leads, other⟩ := h.behind g
  refine .gap ?_
  rw [leads]
  exact refused c r other

theorem Astray.symbol {next : Parser α} {text : String} (h : Astray cs)
    (g : Gap) (follows : text.toList.head?.any followers.contains = true) :
    Never (do gap g; symbol text; next) cs := by
  refine h.never g fun c r other => (symbol_misses_at ?_).never.bind
  cases front : text.toList with
  | nil =>
      rw [front] at follows
      contradiction
  | cons f front' =>
      rw [front] at follows
      simp only [startOtherwise, List.all_cons, List.all_nil, Bool.and_true,
        front, List.head?_cons, Option.any_some, bne_iff_ne]
      rintro rfl
      exact other (List.contains_iff_mem.1 follows)

theorem behindGap_solid (solid : isSolid c = true) (r : List Char) :
    behindGap (c :: r) = c :: r := by
  rw [behindGap, Gap.length_of_solid .line solid, List.drop_zero]

theorem Opens.astray (h : Opens cs) : Astray cs := by
  cases cs with
  | nil => contradiction
  | cons c r =>
      refine ⟨c, r, behindGap_solid (isSolid_of_opensExpr h) r,
        fun follows => ?_⟩
      have closed : ∀ c ∈ followers, opensExpr c = false := by decide
      exact Bool.false_ne_true ((closed c follows).symm.trans h)

theorem redirect_never (h : ∀ op ∈ redirectOps,
    (op.scan (behindGap cs)).isSome = true →
    ¬Opens (behindGap ((behindGap cs).drop op.text.length))) :
    Never (redirect (expression d)) cs := by
  refine .gap (never_bind ?_)
  rintro offset ⟨channel, word⟩ next found
  obtain ⟨op, inside, there, -, rfl⟩ := operator_found found
  exact .gap (concatenation_never (expression_never (h op inside there) _)).bind

theorem dead_of_leads {greater : Bool} {r : List Char}
    (leads : behindGap cs = c :: r) (other : c ∉ followers)
    (refuses : ∀ k < 10, goesOn k (c :: r) = true → Refuses greater k cs)
    (redirect : greater = false →
      redirectOps.any (fun op => (op.scan (c :: r)).isSome) = true →
      ∀ d, Never (redirect (expression d)) cs) : Dead greater cs where
  astray := ⟨c, r, leads, other⟩
  refuses k le := by
    cases there : goesOn k (c :: r) with
    | true => exact refuses k le there
    | false => exact refuses_of_goesOn le (leads ▸ there)
  redirect plain d := by
    cases there : redirectOps.any (fun op => (op.scan (c :: r)).isSome) with
    | true => exact redirect plain there d
    | false =>
        rw [← leads] at there
        exact .gap (operator_misses_any there).never.bind

theorem blocked_of_leads {r : List Char} (leads : behindGap cs = c :: r)
    (other : c ∉ followers) (refuses : ∀ k < 10, goesOn k (c :: r) = true →
      ∀ greater, Refuses greater k cs)
    (redirect : redirectOps.any (fun op => (op.scan (c :: r)).isSome) = false)
    (step : stepOps.any (fun op => (op.scan (c :: r)).isSome) = false)
    (file : fileOps.any (fun op => (op.scan (c :: r)).isSome) = true →
      ∀ d, Never (fileStep (expression d)) cs) : Blocked cs where
  dead greater := by
    refine dead_of_leads leads other (fun k le there =>
      refuses k le there greater) fun _ there => ?_
    exact (Bool.false_ne_true (redirect.symm.trans there)).elim
  step := operator_misses_any (leads ▸ step)
  file d := by
    cases there : fileOps.any (fun op => (op.scan (c :: r)).isSome) with
    | true => exact file there d
    | false =>
        rw [← leads] at there
        exact .gap (operator_misses_any there).bind.never.bind

theorem mayGoOn_stop : ∀ c ∈ ['\\', '['], ∀ k < 10, mayGoOn k c = false := by
  decide +kernel

theorem blocked_of_stop {r : List Char} (leads : behindGap cs = c :: r)
    (stop : c ∈ ['\\', '[']) : Blocked cs := by
  have facts : ∀ c ∈ ['\\', '['], c ∉ followers ∧
      startOtherwise redirectOps c = true ∧ startOtherwise stepOps c = true ∧
      startOtherwise fileOps c = true := by decide
  obtain ⟨other, redirect, step, file⟩ := facts c stop
  refine blocked_of_leads leads other (fun k le there => ?_)
    (any_scan_of_head redirect r) (any_scan_of_head step r) fun there => ?_
  · exact (Bool.false_ne_true ((mayGoOn_stop c stop k le).symm.trans
      (goesOn_head there))).elim
  · exact (Bool.false_ne_true ((any_scan_of_head file r).symm.trans there)).elim

theorem Torn.blocked (torn : Torn (behindGap cs)) : Blocked cs := by
  obtain leads | leads := torn <;> exact blocked_of_stop leads (by decide)

theorem mayGoOn_follower : ∀ c ∈ followers, ∀ k < 10, mayGoOn k c = false := by
  decide +kernel

theorem goesOn_leads {k : Nat} (le : k < 10) (there : goesOn k cs = true) :
    ∃ c r, cs = c :: r ∧ c ∉ followers ∧ mayGoOn k c = true := by
  cases cs with
  | nil => interval_cases k <;> contradiction
  | cons c r =>
      refine ⟨c, r, rfl, fun follows => ?_, goesOn_head there⟩
      exact Bool.false_ne_true ((mayGoOn_follower c follows k le).symm.trans
        (goesOn_head there))

theorem mayGoOn_redirect : ∀ c ∈ ['>', '|'], ∀ k < 10, k ≠ 4 → k ≠ 8 →
    mayGoOn k c = false := by decide +kernel

theorem redirectOps_head : ∀ op ∈ redirectOps, ∃ c ∈ ['>', '|'],
    op.text.toList.head? = some c := by
  intro op inside
  simp only [redirectOps, List.mem_cons, List.not_mem_nil, or_false] at inside
  obtain rfl | rfl | rfl := inside
  · exact ⟨'>', by decide, by decide⟩
  · exact ⟨'>', by decide, by decide⟩
  · exact ⟨'|', by decide, by decide⟩

theorem redirect_never_of_goesOn {k : Nat} (le : k < 10) (compare : k ≠ 4)
    (there : goesOn k (behindGap cs) = true) :
    Never (redirect (expression d)) cs := by
  refine redirect_never fun op inside scanned => ?_
  obtain ⟨rest, front⟩ := op.scan_front scanned
  obtain ⟨c, redirects, leads⟩ := redirectOps_head op inside
  obtain ⟨front', text⟩ := List.head?_eq_some_iff.1 leads
  have may : mayGoOn k c = true := by
    rw [front, text] at there
    exact goesOn_head there
  by_cases disjunction : k = 8
  · subst disjunction
    -- Of the two bars the first one is taken, and no expression starts with the
    -- second one.
    obtain ⟨bars, one, also⟩ := List.any_eq_true.1 there
    obtain ⟨rest', front'⟩ := bars.scan_front also
    rw [List.mem_singleton] at one
    subst one
    simp only [redirectOps, List.mem_cons, List.not_mem_nil, or_false] at inside
    obtain rfl | rfl | rfl := inside
    · cases front.symm.trans front'
    · cases front.symm.trans front'
    · rw [front']
      change ¬Opens (behindGap ('|' :: rest'))
      rw [behindGap_solid (by decide)]
      exact Bool.false_ne_true
  · exact (Bool.false_ne_true
      ((mayGoOn_redirect c redirects k le compare disjunction).symm.trans
        may)).elim

theorem dead_of_goesOn {greater : Bool} {k : Nat} (le : k < 10)
    (there : goesOn k (behindGap cs) = true) (refuses : Refuses greater k cs)
    (redirect : greater = false → ∀ d, Never (redirect (expression d)) cs) :
    Dead greater cs := by
  obtain ⟨c, r, leads, other, -⟩ := goesOn_leads le there
  rw [leads] at there
  refine dead_of_leads leads other (fun j lj also => ?_) fun plain _ =>
    redirect plain
  by_cases same : j = k
  · exact same ▸ refuses
  · exact (Bool.false_ne_true ((goesOn_unique lj le there same).symm.trans
      also)).elim

theorem redirectOps_compare : ∀ op ∈ redirectOps, ∀ symbol ∈ compareOps false,
    op.clashes symbol = true ∨ op.text = ">" ∧ symbol.text = ">=" := by
      decide +kernel

/-- Of `>=` the first character is taken for a place the output goes to, and no
expression starts with the second one. -/
theorem redirect_never_of_compare
    (there : (compareOps false).any (fun op =>
      (op.scan (behindGap cs)).isSome) = true) :
    Never (redirect (expression d)) cs := by
  refine redirect_never fun op inside scanned => ?_
  obtain ⟨symbol, member, also⟩ := List.any_eq_true.1 there
  obtain ⟨rest, front, free⟩ := op.scan_isSome scanned
  obtain ⟨rest', front', free'⟩ := symbol.scan_isSome also
  obtain clash | ⟨short, long⟩ := redirectOps_compare op inside symbol member
  · exact (textsClash_absurd clash (front.symm.trans front') free free').elim
  · rw [front', short, long]
    change ¬Opens (behindGap ('=' :: rest'))
    rw [behindGap_solid (by decide)]
    exact Bool.false_ne_true

theorem redirect_never_of_pipe {r : List Char} (leads : behindGap cs = '|' :: r)
    (torn : Torn (behindGap r)) :
    Never (redirect (expression d)) cs := by
  refine redirect_never fun op inside scanned => ?_
  rw [leads] at scanned ⊢
  obtain ⟨rest, front⟩ := op.scan_front scanned
  simp only [redirectOps, List.mem_cons, List.not_mem_nil, or_false] at inside
  obtain rfl | rfl | rfl := inside
  · cases front
  · cases front
  · have cut : Gap.line.Cut (behindGap r) := .inl torn
    exact cut.closed

theorem powerOps_apart :
    apart (tailOps 0) redirectOps = true ∧ apart (tailOps 0) stepOps = true ∧
    apart (tailOps 0) fileOps = true := by
  decide +kernel

theorem blocked_of_power (there : goesOn 0 (behindGap cs) = true)
    (refuses : ∀ greater, Refuses greater 0 cs) : Blocked cs := by
  obtain ⟨c, r, leads, other, -⟩ := goesOn_leads (by decide) there
  rw [leads] at there
  have power : (tailOps 0).any (fun op => (op.scan (c :: r)).isSome) =
      true := by
    rwa [← goesOn_eq (by decide) (by decide)]
  obtain ⟨redirect, step, file⟩ := powerOps_apart
  refine blocked_of_leads leads other (fun j lj also => ?_)
    (any_scan_of_apart redirect power) (any_scan_of_apart step power)
    fun there => ?_
  · by_cases same : j = 0
    · exact same ▸ refuses
    · exact (Bool.false_ne_true
        ((goesOn_unique lj (by decide) there same).symm.trans also)).elim
  · exact (Bool.false_ne_true ((any_scan_of_apart file power).symm.trans
      there)).elim

theorem mayGoOn_opening : ∀ c ∈ ['(', '$'], ∀ k < 10, k ≠ 3 →
    mayGoOn k c = false := by decide +kernel

theorem blocked_of_opening {r : List Char} (leads : behindGap cs = c :: r)
    (opening : c ∈ ['(', '$'])
    (never : ∀ d, Never (expression d .unary) (c :: r)) : Blocked cs := by
  have facts : ∀ c ∈ ['(', '$'], c ∉ followers ∧
      startOtherwise redirectOps c = true ∧ startOtherwise stepOps c = true ∧
      startOtherwise fileOps c = true := by decide
  obtain ⟨other, redirect, step, file⟩ := facts c opening
  refine blocked_of_leads leads other (fun k le there => ?_)
    (any_scan_of_head redirect r) (any_scan_of_head step r) fun there => ?_
  · by_cases concat : k = 3
    · subst concat
      exact fun _ d _ left => concatStep_never (.inr (leads ▸ never d))
    · exact (Bool.false_ne_true
        ((mayGoOn_opening c opening k le concat).symm.trans
          (goesOn_head there))).elim
  · exact (Bool.false_ne_true ((any_scan_of_head file r).symm.trans there)).elim

theorem mayGoOn_file : ∀ k < 10, k ≠ 4 → mayGoOn k '<' = false := by
  decide +kernel

theorem compareOps_texts : ∀ greater, ∀ op ∈ compareOps greater,
    startOtherwise [op] '<' = true ∨ op.text = "<" ∨ op.text = "<=" := by
      decide +kernel

theorem compareOps_less {greater : Bool} {op : Operator BinaryOp}
    {r : List Char} (inside : op ∈ compareOps greater)
    (there : (op.scan ('<' :: r)).isSome = true) (alone : r.head? ≠ some '=') :
    op.text = "<" := by
  obtain other | short | long := compareOps_texts greater op inside
  · have absent := any_scan_of_head other r
    rw [List.any_cons, there] at absent
    contradiction
  · exact short
  · obtain ⟨rest, front⟩ := op.scan_front there
    rw [long] at front
    obtain ⟨-, rfl⟩ := List.cons.inj front
    exact (alone rfl).elim

theorem blocked_of_file {r : List Char} (leads : behindGap cs = '<' :: r)
    (alone : r.head? ≠ some '=')
    (never : ∀ d, Never (expression d .unary) (behindGap r))
    (file : ∀ d, Never (fileStep (expression d)) cs) : Blocked cs := by
  have facts : '<' ∉ followers ∧ startOtherwise redirectOps '<' = true ∧
      startOtherwise stepOps '<' = true := by decide
  obtain ⟨other, redirect, step⟩ := facts
  refine blocked_of_leads leads other (fun k le there greater => ?_)
    (any_scan_of_head redirect r) (any_scan_of_head step r) fun _ => file
  by_cases compare : k = 4
  · subst compare
    intro d start left
    refine Never.orElse (pipeStep_never (leads ▸ rfl)) (.gap (never_bind ?_))
    rintro offset ⟨op, word⟩ next found
    obtain ⟨symbol, inside, scanned, -, rfl⟩ := operator_found found
    change (symbol.scan (behindGap cs)).isSome = true at scanned
    rw [leads] at scanned
    have behind : ((behindGap cs).drop symbol.text.length) = r := by
      rw [compareOps_less inside scanned alone, leads]
      rfl
    refine .gap ?_
    change Never _ (behindGap ((behindGap cs).drop symbol.text.length))
    rw [behind]
    exact (concatenation_never (never d)).bind
  · exact (Bool.false_ne_true ((mayGoOn_file k le compare).symm.trans
      (goesOn_head there))).elim

/-! ## Depth -/

structure Steadfast : Prop where
  tail : ∀ {d greater start left k cs offset}, k < 10 →
    (tail (expression d) greater start left k ⟨cs, offset⟩).result = .missed →
    Refuses greater k cs
  arguments : ∀ {d cs offset}, (arguments (expression d) ⟨cs, offset⟩).result =
    .missed → ∀ e, Never (arguments (expression e)) cs
  fieldTarget : ∀ {d cs offset},
    (fieldTarget (expression d) ⟨cs, offset⟩).result = .missed →
    ∀ e, Never (fieldTarget (expression e)) cs
  operand : ∀ {d cs offset}, (expression d .operand ⟨cs, offset⟩).result =
    .missed → ∀ e, Never (expression e .operand) cs

end Awk.Source
