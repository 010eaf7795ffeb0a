import Awk.Proofs.Arrays.Split
import Awk.Proofs.Number.Exact
import Awk.Proofs.Regex.Substitution
import Awk.Substring

/-!
# The characters in a window

Characters are numbered from one.  A window selects the characters whose numbers
lie in it, wherever its ends are; its second end is computed from the first one
as it was given.  What `match` leaves behind is a window on the characters that
were matched.
-/

namespace Awk

def charactersAt (p : Int → Prop) [DecidablePred p] (cs : List Char) :
    List Char :=
  ((cs.zipIdx 1).filter fun c => decide (p c.2)).map Prod.fst

/-! ## Windows -/

theorem filter_zipIdx (cs : List Char) (k : Nat) (first stop : Int) :
    ((cs.zipIdx k).filter fun c => decide (first ≤ (c.2 : Int) ∧
      (c.2 : Int) < stop)).map Prod.fst =
      (cs.drop (first - k).toNat).take (stop - max first k).toNat := by
  induction cs generalizing k with
  | nil => simp
  | cons c cs ih =>
      have ih := ih (k + 1)
      rw [List.zipIdx_cons]
      by_cases before : (k : Int) < first
      · obtain ⟨d, away⟩ : ∃ d, (first - k).toNat = d + 1 :=
          ⟨(first - k).toNat - 1, by omega⟩
        have left : (first - (k + 1 : Nat)).toNat = d := by omega
        have same : (stop - max first (k + 1 : Nat)).toNat =
            (stop - max first k).toNat := by omega
        rw [List.filter_cons_of_neg (by simp; omega), ih, away, left, same,
          List.drop_succ_cons]
      · have start : (first - k).toNat = 0 := by omega
        have start' : (first - (k + 1 : Nat)).toNat = 0 := by omega
        rw [start, List.drop_zero]
        rw [start', List.drop_zero] at ih
        by_cases inside : (k : Int) < stop
        · obtain ⟨d, away⟩ : ∃ d, (stop - max first k).toNat = d + 1 :=
            ⟨(stop - max first k).toNat - 1, by omega⟩
          have left : (stop - max first (k + 1 : Nat)).toNat = d := by omega
          rw [List.filter_cons_of_pos (by simp; omega), List.map_cons, ih, away,
            left, List.take_succ_cons]
        · have none : (stop - max first k).toNat = 0 := by omega
          have none' : (stop - max first (k + 1 : Nat)).toNat = 0 := by omega
          rw [List.filter_cons_of_neg (by simp; omega), ih, none, none',
            List.take_zero, List.take_zero]

theorem window_eq (cs : List Char) (first stop : Int) :
    window cs first stop = charactersAt (fun p => first ≤ p ∧ p < stop) cs := by
  have start : (max first 1 - 1).toNat = (first - (1 : Nat)).toNat := by omega
  rw [charactersAt, filter_zipIdx, window, start, List.take_eq_take_iff,
    List.length_drop]
  omega

example : window "hello".toList (-1) (-1 + 4) = ['h', 'e'] := by decide

theorem windowFrom_at (cs : List Char) (first : Int) :
    windowFrom cs (.at first) = charactersAt (first ≤ ·) cs := by
  rw [windowFrom, window_eq, charactersAt, charactersAt]
  congr 1
  apply List.filter_congr
  rintro ⟨c, p⟩ among
  have bound := (List.mem_zipIdx among).2.1
  simp
  omega

theorem window_nat (cs : List Char) (i n : Nat) :
    window cs (i + 1) (i + 1 + n) = (cs.drop i).take n := by
  have start : (max ((i : Int) + 1) 1 - 1).toNat = i := by omega
  rw [window, start, List.take_eq_take_iff, List.length_drop]
  omega

theorem window_append_rest (cs : List Char) (k : Int) :
    window cs 1 (1 + k) ++ windowFrom cs (.at (k + 1)) = cs := by
  have front : window cs 1 (1 + k) = cs.take k.toNat := by
    rw [window, Int.max_self, Int.sub_self, Int.toNat_zero, List.drop_zero,
      List.take_eq_take_iff]
    omega
  have back : windowFrom cs (.at (k + 1)) = cs.drop k.toNat := by
    have start : (max (k + 1) 1 - 1).toNat = k.toNat := by omega
    rw [windowFrom, window, start]
    apply List.take_of_length_le
    rw [List.length_drop]
    omega
  rw [front, back, List.take_append_drop]

/-! ## Numbers as the ends of a window -/

theorem Edge.ofNumber?_of_round? {x : Number} {n : Int}
    (rounded : x.round? = some n) :
    Edge.ofNumber? x = some (.at n) := by
  simp only [Edge.ofNumber?, rounded]

theorem substring_of {x y : Number} {m n : Int} (first : x.round? = some m)
    (length : y.round? = some n) (s : String) :
    substring s x (some y) =
      .ok (String.ofList (window s.toList m (m + n))) := by
  simp only [substring, Edge.ofNumber?_of_round? first,
    Edge.ofNumber?_of_round? length, windowOf]
  rfl

theorem substring_from {x : Number} {m : Int} (first : x.round? = some m)
    (s : String) :
    substring s x none = .ok (String.ofList (windowFrom s.toList (.at m))) := by
  simp only [substring, Edge.ofNumber?_of_round? first]

/-! ## What `match` leaves behind -/

namespace Builtin

def search (text pattern : Argument) : Exec (String × Option Regex.Match) := do
  let text ← text.text
  let regex ← Exec.regex? (← pattern.patternText)
  return (text, regex.bind fun r => r.search? text.toList.toArray 0)

variable {text pattern : Argument} {m m' : Machine} {s : String}

theorem search_eq_ok {found : Option Regex.Match} :
    search text pattern m = .ok (s, found) m' ↔
      ∃ m₁ p m₂ regex, text.text m = .ok s m₁ ∧
      pattern.patternText m₁ = .ok p m₂ ∧ Exec.regex? p m₂ = .ok regex m' ∧
        (regex.bind fun r => r.search? s.toList.toArray 0) = found := by
  constructor
  · intro searched
    obtain ⟨s', m₁, read, searched⟩ := Exec.bind_eq_ok.1 searched
    obtain ⟨p, m₂, known, searched⟩ := Exec.bind_eq_ok.1 searched
    obtain ⟨regex, m₃, compiled, searched⟩ := Exec.bind_eq_ok.1 searched
    cases searched
    exact ⟨m₁, p, m₂, regex, read, known, compiled, rfl⟩
  · rintro ⟨m₁, p, m₂, regex, read, known, compiled, rfl⟩
    rw [search, Exec.bind_ok read, Exec.bind_ok known, Exec.bind_ok compiled]
    rfl

variable {found : Regex.Match}

theorem search_inside
    (searched : search text pattern m = .ok (s, some found) m') :
    found.whole.start ≤ found.whole.stop ∧ found.whole.stop ≤ s.length := by
  obtain ⟨-, -, -, regex, -, -, -, here⟩ := search_eq_ok.1 searched
  obtain ⟨r, -, here⟩ := Option.bind_eq_some_iff.1 here
  simpa [← String.length_toList] using
    (Regex.Pattern.searchUpTo_whole here (by simp)).2

theorem runMatch_of_search
    (searched : search text pattern m = .ok (s, some found) m')
    (rest : List Argument) :
    runMatch (text :: pattern :: rest) m = (do
      storeGroups s.toList.toArray (some found) rest.head?
      setMatch (Number.ofNat (found.whole.start + 1))
        (Number.ofNat (found.whole.stop - found.whole.start))
      return .number (← get).specials.rstart : Exec Value) m' := by
  obtain ⟨m₁, p, m₂, regex, read, known, compiled, here⟩ :=
    search_eq_ok.1 searched
  rw [runMatch, Exec.bind_ok read, Exec.bind_ok known, Exec.bind_ok compiled,
    here]

end Builtin

theorem Exec.regex?_of_compile {m : Machine} (coherent : m.regexes.Coherent)
    {pattern : String} {r : Regex.Pattern}
    (compiled : Regex.compile pattern = .ok r) :
    ∃ cache, Exec.regex? pattern m = .ok (some r) { m with
      regexes := cache } := by
  cases looked : m.regexes.lookup { text := pattern } with
  | error e => cases compiled.symm.trans (Exec.lookup_error looked)
  | ok entry =>
      obtain ⟨r', cache⟩ := entry
      obtain ⟨⟩ : Except.ok r = Except.ok r' :=
        compiled.symm.trans (coherent.lookup looked).1
      have regex : Exec.regex pattern m = .ok (.ok r) { m with
        regexes := cache } := by
        rw [Exec.regex, Exec.get_bind_apply, looked]
        rfl
      exact ⟨cache, Exec.bind_ok regex _⟩

theorem match_variables {run : Services} {text pattern : Expr}
    {rest : List Expr} {m m₁ m' : Machine} {s : String} {found : Regex.Match}
    {v : Value}
    (searched : Builtin.search (text.argument run) (pattern.argument run) m =
      .ok (s, some found) m₁)
    (returned : (Expr.call "match" (text :: pattern :: rest)).eval run m =
      .ok v m') :
    v = .number m'.specials.rstart ∧ m'.specials.rstart =
      Number.ofNat (found.whole.start + 1) ∧
      m'.specials.rlength =
        Number.ofNat (found.whole.stop - found.whole.start) := by
  rw [Expr.eval, Expr.arguments_eq_map] at returned
  have returned :=
    (Builtin.runMatch_of_search searched
      (rest.map (Expr.argument run))).symm.trans returned
  obtain ⟨-, m₂, -, returned⟩ := Exec.bind_eq_ok.1 returned
  cases returned
  exact ⟨rfl, rfl, rfl⟩

theorem substr_eval (run : Services) (text start length : Expr) :
    (Expr.call "substr" [text, start, length]).eval run =
      Builtin.runSubstr [text.argument run, start.argument run,
        length.argument run] := by
  rw [Expr.eval, Expr.arguments_eq_map]
  rfl

theorem substr_match_variables {run : Services} {text : Expr} {m m' : Machine}
    {v : Value} (evaluated : text.eval run m = .ok v m') {s part : String}
    (told : m'.textOf v = .ok s)
    (selected : substring s m'.specials.rstart (some m'.specials.rlength) =
      .ok part) :
    (Expr.call "substr" [text, .read (.variable "RSTART"),
      .read (.variable "RLENGTH")]).eval run m =
      .ok (.text part) m' := by
  have start : ((Expr.read (.variable "RSTART")).argument run).number m' =
      .ok m'.specials.rstart m' := rfl
  have length :
      (((Expr.read (.variable "RLENGTH")).argument run ::
        []).head?.mapM Argument.number) m' =
        .ok (some m'.specials.rlength) m' := rfl
  rw [substr_eval, Builtin.runSubstr,
    Exec.bind_ok (Expr.argument_text evaluated told), Exec.bind_ok start,
    Exec.bind_ok length, selected]
  rfl

/-- What `match` found is what its two variables select, as long as positions
are numbers that stand for themselves. -/
theorem substr_of_match {run : Services} {text pattern : Expr}
    {rest : List Expr} {m m₁ m' : Machine} {s : String} {found : Regex.Match}
    {v : Value}
    (searched : Builtin.search (text.argument run) (pattern.argument run) m =
      .ok (s, some found) m₁)
    (returned : (Expr.call "match" (text :: pattern :: rest)).eval run m =
      .ok v m') (short : s.length < 2 ^ 53) {again : Expr} {w : Value}
    {m'' : Machine} (evaluated : again.eval run m' = .ok w m'')
      (same : m''.textOf w = .ok s) (start : m''.specials.rstart =
        m'.specials.rstart) (length : m''.specials.rlength =
        m'.specials.rlength) :
    (Expr.call "substr" [again, .read (.variable "RSTART"),
      .read (.variable "RLENGTH")]).eval run m' =
      .ok
        (.text (String.ofList (Regex.slice s.toList.toArray found.whole.start
          found.whole.stop))) m'' := by
  obtain ⟨-, rstart, rlength⟩ := match_variables searched returned
  obtain ⟨low, high⟩ := Builtin.search_inside searched
  have first : (Number.ofNat (found.whole.start + 1)).round? =
      some (found.whole.start + 1 : Int) := by
    exact_mod_cast Number.round?_ofNat (by omega)
  have many :=
    Number.round?_ofNat (show found.whole.stop - found.whole.start ≤ 2 ^
      53 by omega)
  apply substr_match_variables evaluated same
  rw [start, length, rstart, rlength, substring_of first many, Regex.slice_eq,
    window_nat]

/-- Characters are selected by their numbers, for whatever integers the ends of
a window are.  So a text is what comes up to a character and what comes behind
it.  What `match` found is selected by the two variables that it sets, as long
as there are no more characters than numbers that stand for themselves. -/
theorem substr_selects_by_position (s : String) :
    (∀ first length : Int,
      windowOf s.toList (.at first) (.at length) =
          .ok (charactersAt (fun p => first ≤ p ∧
            p < first + length) s.toList) ∧
        windowFrom s.toList (.at first) = charactersAt (first ≤ ·) s.toList) ∧
    (∀ (x y : Number) (first length : Int), x.round? = some first →
      y.round? = some length →
      substring s x (some y) =
        .ok (String.ofList (charactersAt (fun p => first ≤ p ∧
          p < first + length) s.toList)) ∧
        substring s x none =
          .ok (String.ofList (charactersAt (first ≤ ·) s.toList))) ∧
    (∀ k : Int, ∃ front, windowOf s.toList (.at 1) (.at k) = .ok front ∧
      front ++ windowFrom s.toList (.at (k + 1)) = s.toList) ∧
    (∀ (one x y : Number) (k : Int), one.round? = some 1 → x.round? = some k →
      y.round? = some (k + 1) →
      ∃ front back, substring s one (some x) = .ok front ∧
      substring s y none = .ok back ∧ front ++ back = s) ∧
    (∀ (run : Services) (text pattern : Expr) (rest : List Expr)
      (m m₁ m' : Machine) (found : Regex.Match) (v : Value),
      Builtin.search (text.argument run) (pattern.argument run) m =
        .ok (s, some found) m₁ →
      (Expr.call "match" (text :: pattern :: rest)).eval run m = .ok v m' →
      s.length < 2 ^ 53 →
      ∀ (again : Expr) (w : Value) (m'' : Machine),
      again.eval run m' = .ok w m'' →
        m''.textOf w = .ok s → m''.specials.rstart = m'.specials.rstart →
        m''.specials.rlength = m'.specials.rlength →
        (Expr.call "substr" [again, .read (.variable "RSTART"),
          .read (.variable "RLENGTH")]).eval run m' =
          .ok
            (.text
              (String.ofList (Regex.slice s.toList.toArray found.whole.start
                found.whole.stop))) m'') := by
  refine ⟨?_, ?_, ?_, ?_, ?_⟩
  · intro first length
    exact ⟨by rw [windowOf, window_eq], windowFrom_at s.toList first⟩
  · intro x y first length here many
    exact ⟨by rw [substring_of here many, window_eq], by
      rw [substring_from here, windowFrom_at]⟩
  · intro k
    exact ⟨window s.toList 1 (1 + k), rfl, window_append_rest s.toList k⟩
  · intro one x y k first up behind
    refine ⟨_, _, substring_of first up s, substring_from behind s, ?_⟩
    rw [← String.ofList_append, window_append_rest, String.ofList_toList]
  · intro run text pattern rest m m₁ m' found v searched returned short again w
      m'' evaluated same start length
    exact substr_of_match searched returned short evaluated same start length

/-- A run in the middle of a text. -/
theorem run_found_selected :
    ∃ m', (Expr.call "match" [.string "abbc", .regex "b+"]).eval runFunction
      {} = .ok (.number (.ofNat 2)) m' ∧
      (Expr.call "substr" [.string "abbc", .read (.variable "RSTART"),
        .read (.variable "RLENGTH")]).eval runFunction m' =
        .ok (.text "bb") m' := by
  let r : Regex.Pattern :=
    ⟨.repeat .greedy 1 none (.chars ⟨false, [.char 98], .exact, false⟩), 0⟩
  have compiled : Regex.compile "b+" = .ok r := by decide +kernel
  obtain ⟨cache, known⟩ :=
    Exec.regex?_of_compile (m := {}) Regex.Cache.coherent_empty compiled
  have searched : Builtin.search ((Expr.string "abbc").argument runFunction)
      ((Expr.regex "b+").argument runFunction) {} =
      .ok ("abbc", some ⟨⟨1, 3⟩, []⟩) { regexes := cache } :=
    Builtin.search_eq_ok.2 ⟨{}, "b+", {}, some r, rfl, rfl,
      known, by decide +kernel⟩
  have returned := Builtin.runMatch_of_search searched []
  obtain ⟨-, -, -, -, selected⟩ := substr_selects_by_position "abbc"
  exact ⟨_, returned, selected _ _ _ [] _ _ _ _ _ searched returned
    (by decide) _ _ _ rfl rfl rfl rfl⟩

end Awk
