import Awk.Proofs.Number.Numeral
import Mathlib.Computability.Language

/-!
# The longest numeral at the front of a text

`Grammar.numeral` says which texts are numerals, as a regular language.  A text
of this language is the text of one `Numeral` with the right characters in its
parts, and of only one.  What is read at the front of a text is never less than
a numeral that stands there: digits that follow the digits read would have been
read with them, and so would a point and a power of ten.
-/

namespace Awk

open Computability

/-! ## The grammar -/

namespace Grammar

def oneOf (p : Char → Bool) : Language Char := {w | ∃ c, p c = true ∧ w = [c]}

def digit : Language Char := oneOf Text.isDigit

def sign : Language Char := oneOf fun c => c == '+' || c == '-'

def point : Language Char := oneOf (· == '.')

def powerMark : Language Char := oneOf fun c => c == 'e' || c == 'E'

def digits : Language Char := digit * digit∗

def power : Language Char := powerMark * (1 + sign) * digits

/-- A sign or none, digits with or without a point or digits behind a point, and
a power of ten or none. -/
def numeral : Language Char :=
  (1 + sign) * (digits * (1 + point * digit∗) + point * digits) * (1 + power)

variable {w : List Char} {p : Char → Bool}

theorem mem_oneOf : w ∈ oneOf p ↔ ∃ c, p c = true ∧ w = [c] := Iff.rfl

theorem mem_kstar_oneOf : w ∈ (oneOf p)∗ ↔ ∀ c ∈ w, p c = true := by
  rw [Language.mem_kstar]
  constructor
  · rintro ⟨letters, rfl, single⟩ c among
    obtain ⟨letter, mem, inside⟩ := List.mem_flatten.1 among
    obtain ⟨d, accepted, rfl⟩ := single letter mem
    rwa [List.mem_singleton.1 inside]
  · intro all
    refine ⟨w.map fun c => [c], ?_, ?_⟩
    · rw [← List.flatMap_def, List.flatMap_singleton']
    · simpa [mem_oneOf] using all

theorem mem_digits : w ∈ digits ↔ w ≠ [] ∧ ∀ c ∈ w, Text.isDigit c = true := by
  simp only [digits, Language.mem_mul, digit, mem_oneOf, mem_kstar_oneOf]
  constructor
  · rintro ⟨_, ⟨c, first, rfl⟩, rest, all, rfl⟩
    simpa using ⟨first, all⟩
  · rintro ⟨filled, all⟩
    obtain ⟨c, rest, rfl⟩ := List.exists_cons_of_ne_nil filled
    simp only [List.forall_mem_cons] at all
    exact ⟨[c], ⟨c, all.1, rfl⟩, rest, all.2, rfl⟩

theorem mem_optional_sign : w ∈ 1 + sign ↔ ∃ s : Option Char,
    (∀ c ∈ s, c = '+' ∨ c = '-') ∧ s.toList = w := by
  simp only [Language.mem_add, Language.mem_one, sign, mem_oneOf,
    Bool.or_eq_true, beq_iff_eq]
  constructor
  · rintro (rfl | ⟨c, mark, rfl⟩)
    · exact ⟨none, by simp, rfl⟩
    · exact ⟨some c, by simpa using mark, rfl⟩
  · rintro ⟨s, mark, rfl⟩
    cases s with
    | none => exact .inl rfl
    | some c => exact .inr ⟨c, mark c rfl, rfl⟩

end Grammar

/-! ## Numerals with the right characters in their parts -/

structure PowerOfTen.WellFormed (p : PowerOfTen) : Prop where
  mark : p.mark = 'e' ∨ p.mark = 'E'
  sign : ∀ c ∈ p.sign, c = '+' ∨ c = '-'
  filled : p.digits ≠ []
  digits : ∀ c ∈ p.digits, Text.isDigit c = true

namespace Numeral

structure WellFormed (n : Numeral) : Prop where
  sign : ∀ c ∈ n.sign, c = '+' ∨ c = '-'
  whole : ∀ c ∈ n.whole, Text.isDigit c = true
  fraction : ∀ c ∈ n.fraction, Text.isDigit c = true
  filled : n.whole ≠ [] ∨ n.fraction ≠ []
  point : n.point = false → n.fraction = []
  power : ∀ p ∈ n.power, p.WellFormed

def mantissaText (n : Numeral) : List Char :=
  n.whole ++ (if n.point then ['.'] else []) ++ n.fraction

theorem text_eq (n : Numeral) :
    n.text = n.sign.toList ++ n.mantissaText ++
      (n.power.map PowerOfTen.text).getD [] := by
  simp [text, mantissaText]

end Numeral

namespace Grammar

variable {w : List Char}

theorem mem_power : w ∈ power ↔ ∃ p : PowerOfTen, p.WellFormed ∧
    p.text = w := by
  simp only [power, powerMark, Language.mem_mul, mem_oneOf, mem_optional_sign,
    mem_digits, Bool.or_eq_true, beq_iff_eq]
  constructor
  · rintro ⟨_, ⟨_, ⟨mark, known, rfl⟩, _, ⟨sign, signs, rfl⟩, rfl⟩, ds,
      ⟨filled, all⟩, rfl⟩
    exact ⟨⟨mark, sign, ds⟩, ⟨known, signs, filled,
      all⟩, by simp [PowerOfTen.text]⟩
  · rintro ⟨⟨mark, sign, ds⟩, ⟨known, signs, filled, all⟩, rfl⟩
    exact ⟨_, ⟨_, ⟨mark, known, rfl⟩, _, ⟨sign, signs, rfl⟩, rfl⟩, ds,
      ⟨filled, all⟩, by simp [PowerOfTen.text]⟩

theorem mem_optional_power :
    w ∈ 1 + power ↔ ∃ p : Option PowerOfTen, (∀ q ∈ p, q.WellFormed) ∧
    (p.map PowerOfTen.text).getD [] = w := by
  simp only [Language.mem_add, Language.mem_one, mem_power]
  constructor
  · rintro (rfl | ⟨p, known, rfl⟩)
    · exact ⟨none, by simp, rfl⟩
    · exact ⟨some p, by simpa using known, rfl⟩
  · rintro ⟨p, known, rfl⟩
    cases p with
    | none => exact .inl rfl
    | some p => exact .inr ⟨p, known p rfl, rfl⟩

theorem mem_mantissa :
    w ∈ digits * (1 + point * digit∗) + point * digits ↔
      ∃ n : Numeral, n.WellFormed ∧ n.sign = none ∧ n.power = none ∧
      n.mantissaText = w := by
  simp only [Language.mem_add, Language.mem_mul, Language.mem_one, mem_digits,
    point, digit, mem_oneOf, mem_kstar_oneOf, beq_iff_eq]
  constructor
  · rintro (⟨whole, ⟨filled, all⟩, _, rfl | ⟨_, ⟨_, rfl, rfl⟩, fraction, all',
      rfl⟩, rfl⟩ | ⟨_, ⟨_, rfl, rfl⟩, fraction, ⟨filled, all⟩, rfl⟩)
    · exact ⟨⟨none, whole, false, [], none⟩,
        ⟨by simp, all, by simp, .inl filled, by simp, by simp⟩, rfl,
        rfl, by simp [Numeral.mantissaText]⟩
    · exact ⟨⟨none, whole, true, fraction, none⟩,
        ⟨by simp, all, all', .inl filled, by simp, by simp⟩, rfl,
        rfl, by simp [Numeral.mantissaText]⟩
    · exact ⟨⟨none, [], true, fraction, none⟩,
        ⟨by simp, by simp, all, .inr filled, by simp, by simp⟩, rfl,
        rfl, by simp [Numeral.mantissaText]⟩
  · rintro ⟨⟨_, whole, hasPoint, fraction, _⟩, known, rfl, rfl, rfl⟩
    obtain ⟨-, all, all', filled, bare, -⟩ := known
    dsimp only at all all' filled bare
    cases hasPoint with
    | false =>
        obtain rfl := bare rfl
        have filled : whole ≠ [] := by simpa using filled
        exact .inl ⟨whole, ⟨filled, all⟩, [],
          .inl rfl, by simp [Numeral.mantissaText]⟩
    | true =>
        by_cases empty : whole = []
        · subst empty
          have filled : fraction ≠ [] := by simpa using filled
          exact .inr ⟨_, ⟨'.', rfl, rfl⟩, fraction, ⟨filled, all'⟩, rfl⟩
        · exact .inl ⟨whole, ⟨empty, all⟩, _,
            .inr ⟨_, ⟨'.', rfl, rfl⟩, fraction, all',
              rfl⟩, by simp [Numeral.mantissaText]⟩

theorem mem_numeral : w ∈ numeral ↔ ∃ n : Numeral, n.WellFormed ∧
    n.text = w := by
  rw [numeral]
  simp only [Language.mem_mul (l := (1 + sign) * _),
    Language.mem_mul (l := 1 + sign), mem_optional_sign, mem_mantissa,
    mem_optional_power]
  constructor
  · rintro ⟨_, ⟨_, ⟨sign, signs, rfl⟩, _, ⟨n, known, plain, bare, rfl⟩, rfl⟩, _,
      ⟨power, powers, rfl⟩, rfl⟩
    exact ⟨{ n with sign := sign, power := power },
      ⟨signs, known.whole, known.fraction, known.filled, known.point, powers⟩,
      Numeral.text_eq _⟩
  · rintro ⟨n, known, rfl⟩
    refine ⟨_, ⟨_, ⟨n.sign, known.sign, rfl⟩, _, ⟨{ n with sign := none,
                                                           power := none }, ?_,
      rfl, rfl, rfl⟩, rfl⟩, _, ⟨n.power, known.power, rfl⟩,
      (Numeral.text_eq n).symm⟩
    exact ⟨by simp, known.whole, known.fraction, known.filled,
      known.point, by simp⟩

end Grammar

/-! ## Reading a numeral that stands there -/

namespace Numeral

variable {n : Numeral} {cs t : List Char}

def NoDigit (t : List Char) : Prop := ∀ c ∈ t.head?, Text.isDigit c = false

theorem ne_of_isDigit {c d : Char} (digit : Text.isDigit c = true)
    (other : Text.isDigit d = false) : c ≠ d := by
  rintro rfl
  simp [digit] at other

theorem isDigit_mark : ∀ c ∈ ['.', '+', '-', 'e', 'E'],
    Text.isDigit c = false := by
  intro c among
  simp only [List.mem_cons, List.not_mem_nil, or_false] at among
  rcases among with rfl | rfl | rfl | rfl | rfl <;> decide +kernel

theorem ne_sign_of_isDigit {c : Char} (digit : Text.isDigit c = true) :
    c ≠ '+' ∧ c ≠ '-' :=
  ⟨ne_of_isDigit digit (isDigit_mark '+' (by simp)),
    ne_of_isDigit digit (isDigit_mark '-' (by simp))⟩

theorem noDigit_powerMark {mark : Char} (known : mark = 'e' ∨ mark = 'E')
    (t : List Char) :
    NoDigit (mark :: t) ∧ (mark :: t).head? ≠ some '.' := by
  have digit : Text.isDigit mark = false := by
    rcases known with rfl | rfl <;> exact isDigit_mark _ (by simp)
  constructor
  · rintro c ⟨⟩
    exact digit
  · rcases known with rfl | rfl <;> simp

theorem span_digits {ds : List Char} (all : ∀ c ∈ ds, Text.isDigit c = true)
    (stop : NoDigit t) :
    (ds ++ t).span Text.isDigit = (ds, t) := by
  rw [List.span_eq_takeWhile_dropWhile, Text.takeWhile_append_stop stop,
    Text.dropWhile_append_stop stop, List.takeWhile_eq_self_iff.2 all,
    List.dropWhile_eq_nil_iff.2 all, List.nil_append]

theorem scanSign_exact {s : Option Char} (known : ∀ c ∈ s, c = '+' ∨ c = '-')
    (next : ∀ c ∈ t.head?, c ≠ '+' ∧ c ≠ '-') :
    scanSign (s.toList ++ t) = (s, t) := by
  cases s with
  | none =>
      cases t with
      | nil => rfl
      | cons c t => simp [scanSign, next c rfl]
  | some c =>
      rcases known c rfl with rfl | rfl
      · rfl
      · rfl

theorem WellFormed.head?_mantissaText (known : n.WellFormed) :
    ∀ c ∈ (n.mantissaText ++ t).head?, Text.isDigit c = true ∨ c = '.' := by
  intro c first
  cases whole : n.whole with
  | cons d rest =>
      have digit := known.whole d (by simp [whole])
      simp only [mantissaText, whole, List.cons_append, List.head?_cons,
        Option.mem_some_iff] at first
      exact .inl (first ▸ digit)
  | nil =>
      have point : n.point = true := by
        by_contra bare
        simpa [whole, known.point (by simpa using bare)] using known.filled
      simp only [mantissaText, whole, point, if_true, List.nil_append,
        List.cons_append, List.head?_cons, Option.mem_some_iff] at first
      exact .inr first.symm

theorem WellFormed.scanMantissa_exact (known : n.WellFormed) (stop : NoDigit t)
    (bare : n.point = false → t.head? ≠ some '.') :
    scanMantissa (n.mantissaText ++ t) = some ((n.whole, n.point, n.fraction),
      t) := by
  cases point : n.point with
  | true =>
      have behind : NoDigit ('.' :: (n.fraction ++ t)) := by
        rintro c ⟨⟩
        exact isDigit_mark '.' (by simp)
      have filled : ¬(n.whole = [] ∧ n.fraction = []) := by
        rcases known.filled with filled | filled <;> simp [filled]
      have text : n.mantissaText ++ t = n.whole ++ '.' ::
          (n.fraction ++ t) := by simp [mantissaText, point]
      rw [text, scanMantissa, span_digits known.whole behind]
      simp only [span_digits known.fraction stop]
      simp [filled]
  | false =>
      have none := known.point point
      have filled : n.whole ≠ [] := by simpa [none] using known.filled
      have text : n.mantissaText ++ t = n.whole ++ t := by
        simp [mantissaText, point, none]
      rw [text, scanMantissa, span_digits known.whole stop]
      dsimp only
      split
      · exact absurd rfl (bare point)
      · simp [filled, none]

theorem scanPower_exact {p : PowerOfTen} (known : p.WellFormed)
    (stop : NoDigit t) :
    scanPower (p.text ++ t) = (some p, t) := by
  have first : ∀ c ∈ (p.digits ++ t).head?, c ≠ '+' ∧ c ≠ '-' := by
    intro c first
    rw [List.head?_append_of_ne_nil _ known.filled] at first
    exact ne_sign_of_isDigit (known.digits c (List.mem_of_mem_head? first))
  have text : p.text ++ t = p.mark :: (p.sign.toList ++ (p.digits ++ t)) := by
    simp [PowerOfTen.text]
  rw [text, scanPower, if_pos known.mark, scanSign_exact known.sign first]
  dsimp only
  rw [span_digits known.digits stop]
  simp [known.filled]

structure Ends (n : Numeral) (t : List Char) : Prop where
  digit : NoDigit t
  point : n.power = none → n.point = false → t.head? ≠ some '.'
  power : n.power = none → scanPower t = (none, t)

theorem WellFormed.scan_exact (known : n.WellFormed) (ends : n.Ends t) :
    scan (n.text ++ t) = some (n, t) := by
  let behind := (n.power.map PowerOfTen.text).getD [] ++ t
  have power : scanPower behind = (n.power, t) ∧ NoDigit behind ∧
      (n.point = false → behind.head? ≠ some '.') := by
    cases power : n.power with
    | none =>
        simpa [behind, power] using ⟨ends.power power, ends.digit,
          ends.point power⟩
    | some p =>
        have powered := known.power p power
        have text : behind = p.text ++ t := by simp [behind, power]
        obtain ⟨digit, point⟩ :=
          noDigit_powerMark powered.mark (p.sign.toList ++ p.digits ++ t)
        rw [text]
        exact ⟨scanPower_exact powered ends.digit, digit, fun _ => point⟩
  obtain ⟨power, digit, point⟩ := power
  have first : ∀ c ∈ (n.mantissaText ++ behind).head?, c ≠ '+' ∧ c ≠ '-' := by
    intro c first
    rcases known.head?_mantissaText c first with digit | rfl
    · exact ne_sign_of_isDigit digit
    · decide
  have text : n.text ++ t = n.sign.toList ++ (n.mantissaText ++ behind) := by
    simp [text_eq, behind]
  rw [text, scan, scanSign_exact known.sign first]
  simp [scanUnsigned, known.scanMantissa_exact digit point, power]

/-! ## What is read is a numeral -/

theorem scanSign_known (cs : List Char) : ∀ c ∈ (scanSign cs).1, c = '+' ∨
    c = '-' := by
  unfold scanSign
  split <;> simp

theorem scanMantissa_wellFormed {rest whole fraction : List Char} {point : Bool}
    (read : scanMantissa cs = some ((whole, point, fraction), rest)) :
    WellFormed ⟨none, whole, point, fraction, none⟩ := by
  have digits (cs : List Char) : ∀ c ∈ (cs.span Text.isDigit).1,
      Text.isDigit c = true := by
    intro c among
    rw [List.span_eq_takeWhile_dropWhile] at among
    exact List.mem_takeWhile_imp among
  unfold scanMantissa at read
  dsimp only at read
  split at read
  · rename_i afterPoint _
    split at read
    · contradiction
    · rename_i filled
      cases read
      refine ⟨by simp, digits cs, digits afterPoint, ?_, by simp, by simp⟩
      rw [Bool.and_eq_true, not_and_or] at filled
      simpa using filled
  · split at read
    · contradiction
    · rename_i filled
      cases read
      exact ⟨by simp, digits cs, by simp,
        .inl (by simpa using filled), by simp, by simp⟩

theorem scanPower_wellFormed {p : PowerOfTen} {rest : List Char}
    (read : scanPower cs = (some p, rest)) :
    p.WellFormed := by
  cases cs with
  | nil => simp [scanPower] at read
  | cons c cs =>
      rw [scanPower] at read
      split at read
      · rename_i mark
        dsimp only at read
        split at read
        · simp at read
        · rename_i filled
          cases read
          rw [List.span_eq_takeWhile_dropWhile] at filled ⊢
          exact ⟨mark, scanSign_known cs, by simpa using filled,
            fun c among => List.mem_takeWhile_imp among⟩
      · simp at read

theorem scanPower_cases (t : List Char) :
    scanPower t = (none, t) ∨ ∃ (p : PowerOfTen) (rest : List Char),
    p.WellFormed ∧ t = p.text ++ rest := by
  have apart := scanPower_append t
  cases read : scanPower t with
  | mk found rest =>
      rw [read] at apart
      cases found with
      | none => exact .inl (Prod.ext rfl (by simpa using apart))
      | some p =>
          exact .inr ⟨p, rest, scanPower_wellFormed read, by
            simpa using apart.symm⟩

theorem scan_wellFormed {rest : List Char} (read : scan cs = some (n, rest)) :
    n.WellFormed := by
  obtain ⟨⟨unsigned, after⟩, read, same⟩ := Option.map_eq_some_iff.1 read
  cases same
  unfold scanUnsigned at read
  split at read
  · contradiction
  · rename_i whole point fraction behind mantissa
    have known := scanMantissa_wellFormed mantissa
    cases read
    refine ⟨scanSign_known cs, known.whole, known.fraction, known.filled,
      known.point, ?_⟩
    intro p found
    exact scanPower_wellFormed (Prod.ext found rfl)

/-! ## Nothing longer stands there -/

/-- A text of a language at the front of another text, and no longer one is
there. -/
structure IsLongest (L : Language Char) (cs w : List Char) : Prop where
  member : w ∈ L
  front : w <+: cs
  longest : ∀ v ∈ L, v <+: cs → v.length ≤ w.length

theorem exists_isLongest {L : Language Char} {w : List Char} (member : w ∈ L)
    (front : w <+: cs) :
    ∃ v, IsLongest L cs v := by
  obtain ⟨v, ⟨member, front⟩, least⟩ :=
    (measure fun w : List Char => cs.length - w.length).wf.has_min {w | w ∈ L ∧
      w <+: cs} ⟨w, member, front⟩
  refine ⟨v, member, front, fun u other there => ?_⟩
  have shorter : ¬cs.length - u.length < cs.length - v.length :=
    least u ⟨other, there⟩
  have := there.length_le
  have := front.length_le
  omega

theorem WellFormed.exists_concat (known : n.WellFormed) {c : Char}
    (digit : Text.isDigit c = true) :
    ∃ k : Numeral, k.WellFormed ∧ k.text = n.text ++ [c] := by
  have concat {ds : List Char} (all : ∀ d ∈ ds, Text.isDigit d = true) :
      ∀ d ∈ ds ++ [c], Text.isDigit d = true := by
    simpa [or_imp, forall_and] using ⟨all, digit⟩
  cases power : n.power with
  | some p =>
      have powered := known.power p power
      refine ⟨{ n with power := some { p with digits := p.digits ++ [c] } },
        ?_, by simp [text, power, PowerOfTen.text]⟩
      refine ⟨known.sign, known.whole, known.fraction, known.filled,
        known.point, ?_⟩
      rintro q ⟨⟩
      exact ⟨powered.mark, powered.sign, by simp, concat powered.digits⟩
  | none =>
      cases point : n.point with
      | true =>
          refine ⟨{ n with fraction := n.fraction ++ [c] },
            ?_, by simp [text, power]⟩
          exact ⟨known.sign, known.whole,
            concat known.fraction, by simp, by simp [point], known.power⟩
      | false =>
          refine ⟨{ n with whole := n.whole ++ [c] },
            ?_, by simp [text, power, point, known.point point]⟩
          exact ⟨known.sign, concat known.whole, known.fraction, by simp,
            known.point, known.power⟩

/-- Behind a longest numeral there is nothing that could be added to it. -/
theorem WellFormed.ends_of_longest (known : n.WellFormed)
    (longest : ∀ k : Numeral, k.WellFormed → k.text <+: n.text ++ t →
      k.text.length ≤ n.text.length) : n.Ends t := by
  have closed (k : Numeral) (more rest : List Char) (known : k.WellFormed)
      (added : k.text = n.text ++ more) (there : t = more ++ rest) :
      more = [] := by
    have bound := longest k known ⟨rest, by simp [added, there]⟩
    rw [added, List.length_append] at bound
    exact List.eq_nil_of_length_eq_zero (by omega)
  refine ⟨?_, ?_, ?_⟩
  · intro c first
    obtain ⟨rest, rfl⟩ : ∃ rest, t = c :: rest := by
      cases t <;> simp_all
    by_contra digit
    obtain ⟨k, extended, added⟩ :=
      known.exists_concat (Bool.eq_true_of_not_eq_false digit)
    simpa using closed k [c] rest extended added rfl
  · intro power point first
    obtain ⟨rest, rfl⟩ : ∃ rest, t = '.' :: rest := by
      cases t <;> simp_all
    have extended : WellFormed { n with point := true } :=
      ⟨known.sign, known.whole, known.fraction, known.filled, by simp,
        known.power⟩
    simpa using closed _ ['.'] rest extended
      (by simp [text, power, point, known.point point]) rfl
  · intro power
    rcases scanPower_cases t with unread | ⟨p, rest, powered, there⟩
    · exact unread
    · have extended : WellFormed { n with power := some p } := by
        refine ⟨known.sign, known.whole, known.fraction, known.filled,
          known.point, ?_⟩
        rintro q ⟨⟩
        exact powered
      have empty := closed _ p.text rest extended (by simp [text, power]) there
      simp [PowerOfTen.text] at empty

theorem scan_of_isLongest {w : List Char}
    (longest : IsLongest Grammar.numeral cs w) :
    ∃ n rest, n.WellFormed ∧ n.text = w ∧ scan cs = some (n, rest) := by
  obtain ⟨n, known, rfl⟩ := Grammar.mem_numeral.1 longest.member
  obtain ⟨rest, rfl⟩ := longest.front
  refine ⟨n, rest, known, rfl, known.scan_exact (known.ends_of_longest ?_)⟩
  intro k other there
  exact longest.longest _ (Grammar.mem_numeral.2 ⟨k, other, rfl⟩) there

theorem scan_eq_none_of_forall (absent : ∀ w ∈ Grammar.numeral, ¬w <+: cs) :
    scan cs = none := by
  rw [Option.eq_none_iff_forall_ne_some]
  rintro ⟨n, rest⟩ read
  exact absent n.text (Grammar.mem_numeral.2 ⟨n, scan_wellFormed read, rfl⟩)
    ⟨rest, (scan_eq_some read).symm⟩

/-- A text is spelled by one numeral only. -/
theorem WellFormed.eq_of_text {k : Numeral} (known : n.WellFormed)
    (other : k.WellFormed) (same : k.text = n.text) :
    k = n := by
  have ends (n : Numeral) : n.Ends [] :=
    ⟨by simp [NoDigit], by simp, fun _ => rfl⟩
  have first := known.scan_exact (ends n)
  have second := other.scan_exact (ends k)
  rw [same, first] at second
  simpa using second.symm

theorem ends_of_mark {mark : Char} (isMark : mark = 'e' ∨ mark = 'E')
    {rest : List Char} (bare : ∀ v ∈ Grammar.power, ¬v <+: mark :: rest)
    (n : Numeral) : n.Ends (mark :: rest) := by
  obtain ⟨digit, point⟩ := noDigit_powerMark isMark rest
  refine ⟨digit, fun _ _ => point, fun _ => ?_⟩
  rcases scanPower_cases (mark :: rest) with unread | ⟨p, after, powered, there⟩
  · exact unread
  · exact absurd ⟨after, there.symm⟩ (bare p.text (Grammar.mem_power.2 ⟨p,
      powered, rfl⟩))

end Numeral

/-! ## The number a text starts with -/

def behindBlanks (s : String) : List Char :=
  s.toList.dropWhile fun c =>
    decide (c ∈ [' ', '\t', '\n', '\r', '\x0c', '\x0b'])

theorem isNumberBlank_eq (c : Char) :
    Text.isNumberBlank c = decide (c ∈ [' ', '\t', '\n', '\r', '\x0c',
      '\x0b']) := by
  have code (d : Char) : c = d ↔ c.toNat = d.toNat :=
    ⟨congrArg Char.toNat, fun same => Char.toNat_inj.1 same⟩
  rw [Text.isNumberBlank, Bool.eq_iff_iff]
  simp [code]
  omega

theorem toNumber_eq_scan (s : String) :
    (Value.text s).toNumber =
      ((Numeral.scan (behindBlanks s)).map fun found => found.1.value).getD
      .zero := by
  have same : s.toList.dropWhile Text.isNumberBlank = behindBlanks s :=
    congrArg (s.toList.dropWhile ·) (funext isNumberBlank_eq)
  rw [Value.toNumber, Number.ofText, same]
  cases Numeral.scan (behindBlanks s) <;> rfl

/-- The number of a text is that of the longest numeral behind the blanks, which
can be read in one way only; a text without one is zero.  A mark of a power of
ten without digits does not belong to the numeral before it. -/
theorem toNumber_longest_numeral (s : String) :
    ((∃ w ∈ Grammar.numeral, w <+: behindBlanks s) →
      ∃ n : Numeral, Numeral.IsLongest Grammar.numeral (behindBlanks s) n.text ∧
      (Value.text s).toNumber = n.value ∧
        n.WellFormed ∧ ∀ k : Numeral, k.WellFormed → k.text = n.text → k = n) ∧
    ((∀ w ∈ Grammar.numeral, ¬w <+: behindBlanks s) →
      (Value.text s).toNumber = .zero) ∧
    ∀ n : Numeral, n.WellFormed → ∀ mark rest, mark = 'e' ∨ mark = 'E' →
      (∀ v ∈ Grammar.power, ¬v <+: mark :: rest) →
      behindBlanks s = n.text ++ mark :: rest →
        (Value.text s).toNumber = n.value := by
  refine ⟨?_, ?_, ?_⟩
  · rintro ⟨w, member, front⟩
    obtain ⟨v, longest⟩ := Numeral.exists_isLongest member front
    obtain ⟨n, rest, known, rfl, read⟩ := Numeral.scan_of_isLongest longest
    refine ⟨n, longest, ?_, known,
      fun k other same => known.eq_of_text other same⟩
    simp [toNumber_eq_scan, read]
  · intro absent
    simp [toNumber_eq_scan, Numeral.scan_eq_none_of_forall absent]
  · intro n known mark rest isMark bare there
    simp [toNumber_eq_scan, there,
      known.scan_exact (Numeral.ends_of_mark isMark bare n)]

example :
    [" 1.e5x", "1e", "-.5e+",
      "+.e"].map (fun s => (Numeral.scan (behindBlanks s)).map fun found =>
        found.1.text) =
      [some "1.e5".toList, some "1".toList, some "-.5".toList, none] := by
  decide +kernel

end Awk
