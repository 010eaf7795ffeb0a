import Awk.Proofs.Source.Phrase
import Awk.Proofs.Source.Recognition
import Mathlib.Data.List.Basic
import Mathlib.Data.List.TakeDrop

/-!
# What tokens are found

Gaps, operators, names, numbers and strings as phrases are written with them.
What is found depends on a character or two behind a token at most, and what is
missed on the first character of the text, so the lemmas are stated for texts of
which only these are known.
-/

namespace Awk.Source

open Awk.Source.Parser (Scanner token)

variable {α : Type} {c : Char} {cs rest : List Char}

/-! ## Gaps -/

def isSolid (c : Char) : Bool := !Gap.terms.contains c && c != '#' && c != '\\'

theorem Gap.length_of_solid (g : Gap) (solid : isSolid c = true)
    (rest : List Char) : g.length false (c :: rest) = 0 := by
  simp only [isSolid, Bool.and_eq_true, Bool.not_eq_true', bne_iff_ne] at solid
  obtain ⟨⟨free, comment⟩, continued⟩ := solid
  have outside : g.contains c = false := by
    cases g <;> simp_all [Gap.contains]
  unfold Gap.length
  split
  all_goals simp_all

theorem finds_gap (g : Gap) (solid : isSolid c = true) :
    Finds (gap g) (c :: rest) (fun _ => True) (c :: rest) := by
  intro offset
  refine ⟨(), offset, ?_, trivial⟩
  simp only [gap, g.length_of_solid solid, Cursor.drop, List.drop_zero,
    Nat.add_zero]

theorem finds_gap_space (g : Gap) (solid : isSolid c = true) :
    Finds (gap g) (' ' :: c :: rest) (fun _ => True) (c :: rest) := by
  intro offset
  have length : g.length false (' ' :: c :: rest) = 1 := by
    change g.length false (c :: rest) + 1 = 1
    rw [g.length_of_solid solid]
  refine ⟨(), offset + 1, ?_, trivial⟩
  simp only [gap, length, Cursor.drop, List.drop_one, List.tail_cons]

/-! ## Operators -/

theorem dropFront?_append (front rest : List Char) :
    Text.dropFront? front (front ++ rest) = some rest := by
  induction front with
  | nil => rfl
  | cons f front ih => simpa [Text.dropFront?] using ih

theorem dropFront?_of_head {f : Char} (other : f ≠ c) (front : List Char) :
    Text.dropFront? (f :: front) (c :: cs) = none :=
  if_neg other

theorem operator_misses {ops : List (Operator α)}
    (h : ∀ op ∈ ops, op.scan cs = none) : Misses (operator ops) cs := by
  intro offset
  have none : ops.find? (fun op => (op.scan cs).isSome) = none := by
    rw [List.find?_eq_none]
    intro op inside
    rw [h op inside]
    exact Bool.false_ne_true
  simp only [operator, none]

def startOtherwise (ops : List (Operator α)) (c : Char) : Bool :=
  ops.all fun op => op.text.toList.head?.any (· != c)

theorem operator_misses_at {ops : List (Operator α)}
    (h : startOtherwise ops c = true) : Misses (operator ops) (c :: cs) := by
  refine operator_misses fun op inside => ?_
  have start := List.all_eq_true.1 h op inside
  unfold Operator.scan
  cases text : op.text.toList with
  | nil =>
      rw [text] at start
      contradiction
  | cons f front =>
      rw [text] at start
      have other : f ≠ c := by simpa using start
      rw [dropFront?_of_head other]

theorem finds_symbol (text : String) (rest : List Char) :
    Finds (symbol text) (text.toList ++ rest) (fun _ => True) rest := by
  have found : Finds (operator [⟨text, [], ()⟩]) (text.toList ++ rest)
      (fun _ => True) rest := by
    intro offset
    have scan : (Operator.mk text [] ()).scan (text.toList ++ rest) =
        some text.length := by
      unfold Operator.scan
      rw [dropFront?_append]
      cases rest <;> rfl
    refine ⟨((), ⟨text, offset⟩), offset + text.length, ?_, trivial⟩
    simp only [operator, List.find?_cons, scan, Option.isSome_some, Cursor.drop]
    rw [← String.length_toList, List.drop_left]
  exact found.bind fun _ _ => finds_pure trivial

theorem symbol_misses_at {text : String}
    (h : startOtherwise [(⟨text, [], ()⟩ : Operator Unit)] c = true) :
    Misses (symbol text) (c :: cs) :=
  (operator_misses_at h).bind

/-! ## Words -/

theorem token_misses {scan : Scanner} (h : scan cs = none) :
    Misses (token scan) cs := by
  intro offset
  simp only [token, h]

theorem token_finds {scan : Scanner} {word : List Char}
    (h : scan (word ++ rest) = some word.length) :
    Finds (token scan) (word ++ rest) (·.text = String.ofList word) rest := by
  intro offset
  refine ⟨⟨String.ofList word, offset⟩, offset + word.length, ?_, rfl⟩
  simp only [token, h, Cursor.drop, List.take_left, List.drop_left]

def isBreak (c : Char) : Bool := !Text.isWord c && !Text.isAsciiWord c

theorem wordRun_append {word : List Char}
    (inside : word.all Text.isAsciiWord = true) (ends : isBreak c = true) :
    wordRun (word ++ c :: rest) = word := by
  simp only [isBreak, Bool.and_eq_true, Bool.not_eq_true'] at ends
  rw [wordRun, List.takeWhile_append_of_pos (List.all_eq_true.1 inside),
    List.takeWhile_cons, ends.2]
  simp

theorem endsWord_append {word : List Char}
    (inside : word.all Text.isAsciiWord = true) (ends : isBreak c = true) :
    endsWord (word ++ c :: rest) = true := by
  simp only [isBreak, Bool.and_eq_true, Bool.not_eq_true'] at ends
  rw [endsWord, List.dropWhile_append_of_pos (List.all_eq_true.1 inside),
    List.dropWhile_cons, ends.2]
  simp [ends.1]

theorem scanWord_of_other {words : List String} {word : String}
    (inside : word.toList.all Text.isAsciiWord = true) (ends : isBreak c = true)
    (other : words.contains word = false) :
    scanWord words (word.toList ++ c :: rest) = none := by
  simp only [scanWord, wordRun_append inside ends, String.ofList_toList, other,
    Bool.false_and]
  rfl

theorem scanWord_of_mem {words : List String} {word : String}
    (inside : word.toList.all Text.isAsciiWord = true) (ends : isBreak c = true)
    (member : words.contains word = true) :
    scanWord words (word.toList ++ c :: rest) = some word.toList.length := by
  simp only [scanWord, wordRun_append inside ends, String.ofList_toList, member,
    endsWord_append inside ends]
  rfl

def areWords (words : List String) : Bool :=
  words.all fun word => word.toList.head?.any isNameStart

theorem scanWord_misses_at {words : List String}
    (proper : areWords words = true) (start : isNameStart c = false) :
    scanWord words (c :: cs) = none := by
  unfold scanWord
  have other : words.contains (String.ofList (wordRun (c :: cs))) = false := by
    rw [← Bool.not_eq_true, List.contains_iff_mem]
    intro member
    have head := List.all_eq_true.1 proper _ member
    rw [String.toList_ofList, wordRun, List.takeWhile_cons] at head
    split at head
    · rw [List.head?_cons, Option.any_some, start] at head
      contradiction
    · contradiction
  simp only [other, Bool.false_and]
  rfl

theorem keyword_misses_at {word : String} (proper : areWords [word] = true)
    (start : isNameStart c = false) :
    Misses (keyword word) (c :: cs) :=
  token_misses (scanWord_misses_at proper start)

theorem builtinName_misses_at (start : isNameStart c = false) :
    Misses builtinName (c :: cs) :=
  token_misses (scanWord_misses_at (by decide) start)

theorem name_misses_at (start : isNameStart c = false) :
    Misses name (c :: cs) := by
  refine token_misses ?_
  simp [scanFreeName, scanName, start]

section Names

variable {s : String}

theorem isFreeName_start (free : isFreeName s = true) :
    ∃ d r, s.toList = d :: r ∧ isNameStart d = true := by
  unfold isFreeName at free
  cases text : s.toList with
  | nil =>
      rw [text] at free
      contradiction
  | cons d r =>
      simp only [text, Bool.and_eq_true] at free
      exact ⟨d, r, rfl, free.1.1⟩

theorem isFreeName_inside (free : isFreeName s = true) :
    s.toList.all Text.isAsciiWord = true := by
  unfold isFreeName at free
  cases text : s.toList with
  | nil => rfl
  | cons d r =>
      simp only [text, Bool.and_eq_true] at free
      obtain ⟨⟨start, inside⟩, -⟩ := free
      simp only [isNameStart, Bool.and_eq_true] at start
      rw [List.all_cons, start.1, inside]
      rfl

theorem isFreeName_other (free : isFreeName s = true) :
    (keywords ++ builtinNames).contains s = false := by
  unfold isFreeName at free
  cases text : s.toList with
  | nil =>
      rw [text] at free
      contradiction
  | cons d r =>
      simp only [text, Bool.and_eq_true, Bool.not_eq_true'] at free
      exact free.2

theorem finds_name (free : isFreeName s = true) (ends : isBreak c = true) :
    Finds name (s.toList ++ c :: rest) (·.text = s) (c :: rest) := by
  have inside := isFreeName_inside free
  obtain ⟨d, r, text, start⟩ := isFreeName_start free
  have scan : scanFreeName (s.toList ++ c :: rest) = some s.toList.length := by
    have run : wordRun (s.toList ++ c :: rest) = s.toList :=
      wordRun_append inside ends
    rw [scanFreeName, scanWord_of_other inside ends (isFreeName_other free),
      scanName, run, text]
    simp [start]
  refine (token_finds scan).imp fun word known => ?_
  rw [known, String.ofList_toList]

theorem name_misses_word (inside : s.toList.all Text.isAsciiWord = true)
    (taken : (keywords ++ builtinNames).contains s = true)
    (ends : isBreak c = true) : Misses name (s.toList ++ c :: rest) := by
  refine token_misses ?_
  rw [scanFreeName, scanWord_of_mem inside ends taken]
  rfl

theorem builtin_inside (builtin : s ∈ builtinNames) :
    s.toList.all Text.isAsciiWord = true := by
  have all : ∀ s ∈ builtinNames, s.toList.all Text.isAsciiWord = true := by
    decide
  exact all s builtin

theorem finds_builtinName (builtin : s ∈ builtinNames)
    (ends : isBreak c = true) :
    Finds builtinName (s.toList ++ c :: rest) (·.text = s) (c :: rest) := by
  have scan : scanWord builtinNames (s.toList ++ c :: rest) =
      some s.toList.length :=
    scanWord_of_mem (builtin_inside builtin) ends
      (List.contains_iff_mem.2 builtin)
  refine (token_finds scan).imp fun word known => ?_
  rw [known, String.ofList_toList]

theorem builtinName_misses_word (inside : s.toList.all Text.isAsciiWord = true)
    (other : builtinNames.contains s = false) (ends : isBreak c = true) :
    Misses builtinName (s.toList ++ c :: rest) :=
  token_misses (scanWord_of_other inside ends other)

end Names

/-! ## Digits -/

theorem digitValue?_of_small {n : Nat} (above : 58 ≤ n) (below : n < 1632) :
    ∀ z ∈ Text.digitZeros, ¬(z ≤ n ∧ n < z + 10) := by
  have zeros : ∀ z ∈ Text.digitZeros, z = 48 ∨ 1632 ≤ z := by decide
  intro z member
  have := zeros z member
  omega

theorem toNat_of_nameStart (start : isNameStart c = true) :
    58 ≤ c.toNat ∧ c.toNat < 1632 := by
  simp only [isNameStart, Text.isAsciiWord, Text.isAsciiDigit, Bool.and_eq_true,
    Bool.or_eq_true, decide_eq_true_eq, beq_iff_eq, Bool.not_eq_true',
    Bool.and_eq_false_iff, decide_eq_false_iff_not, Char.le_def,
    UInt32.le_iff_toNat_le] at start
  obtain ⟨(((lower | upper) | digit) | rfl), other⟩ := start
  · change 97 ≤ c.toNat ∧ c.toNat ≤ 122 at lower
    omega
  · change 65 ≤ c.toNat ∧ c.toNat ≤ 90 at upper
    omega
  · exact (other.elim (· digit.1) (· digit.2)).elim
  · decide

theorem isDigit_of_nameStart (start : isNameStart c = true) :
    Text.isDigit c = false := by
  obtain ⟨above, below⟩ := toNat_of_nameStart start
  rw [Text.isDigit, Text.digitValue?, Option.isSome_eq_false_iff,
    Option.isNone_iff_eq_none, List.findSome?_eq_none_iff]
  intro z member
  rw [if_neg (digitValue?_of_small above below z member)]

theorem toNat_of_isDigit (digit : c.isDigit = true) :
    48 ≤ c.toNat ∧ c.toNat < 48 + 10 := by
  simp only [Char.isDigit, ge_iff_le, Bool.and_eq_true, decide_eq_true_eq,
    UInt32.le_iff_toNat_le] at digit
  change 48 ≤ c.toNat ∧ c.toNat ≤ 57 at digit
  omega

theorem digitValue?_of_isDigit (digit : c.isDigit = true) :
    Text.digitValue? c = some (c.toNat - 48) := by
  rw [Text.digitValue?, Text.digitZeros, List.findSome?_cons,
    if_pos (toNat_of_isDigit digit)]

theorem isDigit_ordinary (digit : c.isDigit = true) :
    Text.isNumberBlank c = false ∧ isNameStart c = false ∧
    ∀ b ∈ ['+', '-', '!', '$'], c ≠ b := by
  have others : ∀ b ∈ ['+', '-', '!', '$', ' '], b.isDigit = false := by decide
  have other : ∀ b ∈ ['+', '-', '!', '$', ' '], c ≠ b := by
    rintro b member rfl
    rw [others c member] at digit
    contradiction
  have range := toNat_of_isDigit digit
  refine ⟨?_, ?_, fun b member => other b ?_⟩
  · have space : c ≠ ' ' := other ' ' (by decide)
    simp [Text.isNumberBlank, space]
    omega
  · have same : Text.isAsciiDigit c = true := digit
    simp [isNameStart, same]
  · simp only [List.mem_cons, List.not_mem_nil, or_false] at member ⊢
    tauto

theorem digits_isDigit (n : Nat) : ∀ d ∈ Decimal.digits n, d.isDigit = true :=
  fun _ => Nat.isDigit_of_mem_toDigits (by decide) (by decide)

theorem digits_areDigits (n : Nat) : ∀ d ∈ Decimal.digits n,
    Text.isDigit d = true := by
  intro d member
  rw [Text.isDigit, digitValue?_of_isDigit (digits_isDigit n d member)]
  rfl

theorem digitsValue_digits (n : Nat) :
    Text.digitsValue (Decimal.digits n) = n := by
  have same : Text.digitsValue (Decimal.digits n) =
      Nat.ofDigitChars 10 (Decimal.digits n) 0 := by
    refine List.foldl_ext _ _ _ fun total d member => ?_
    rw [digitValue?_of_isDigit (digits_isDigit n d member)]
    rfl
  exact same.trans (Nat.ofDigitChars_toDigits (by decide) (by decide))

theorem scanUnsigned_digits (n : Nat)
    (ends : ∀ c ∈ rest.head?, Text.isDigit c = false ∧ c ≠ '.' ∧ c ≠ 'e' ∧
      c ≠ 'E') :
    Numeral.scanUnsigned (Decimal.digits n ++ rest) =
      some (⟨none, Decimal.digits n, false, [], none⟩, rest) := by
  have filled : (Decimal.digits n).isEmpty = false := by
    rw [List.isEmpty_eq_false_iff]
    exact Nat.toDigits_ne_nil
  have span : (Decimal.digits n ++ rest).span Text.isDigit =
      (Decimal.digits n, rest) := by
    rw [List.span_eq_takeWhile_dropWhile,
      List.takeWhile_append_of_pos (digits_areDigits n),
      List.dropWhile_append_of_pos (digits_areDigits n)]
    cases rest with
    | nil => simp
    | cons c r => simp [(ends c rfl).1]
  unfold Numeral.scanUnsigned Numeral.scanMantissa
  rw [span]
  cases rest with
  | nil => simp [filled, Numeral.scanPower]
  | cons c r =>
      obtain ⟨-, point, lower, upper⟩ := ends c rfl
      have power : Numeral.scanPower (c :: r) = (none, c :: r) := by
        rw [Numeral.scanPower, if_neg (not_or.2 ⟨lower, upper⟩)]
      split
      · simp_all
      · simp_all

theorem number_misses_at (digit : Text.isDigit c = false) (point : c ≠ '.') :
    Misses numberTerm (c :: cs) := by
  have scan : scanNumber (c :: cs) = none := by
    have span : (c :: cs).span Text.isDigit = ([], c :: cs) := by
      rw [List.span_eq_takeWhile_dropWhile]
      simp [digit]
    unfold scanNumber Numeral.scanUnsigned Numeral.scanMantissa
    rw [span]
    split
    · simp_all
    · simp_all
  exact (token_misses scan).bind

theorem ofText_digits (n : Nat) :
    Number.ofText (String.ofList (Decimal.digits n)) = nearest n := by
  have filled : Decimal.digits n ≠ [] := Nat.toDigits_ne_nil
  obtain ⟨d, ds, digits⟩ := List.exists_cons_of_ne_nil filled
  have first : d.isDigit = true :=
    digits_isDigit n d (digits ▸ List.mem_cons_self)
  obtain ⟨blank, -, other⟩ := isDigit_ordinary first
  have plus : d ≠ '+' := other _ (by decide)
  have minus : d ≠ '-' := other _ (by decide)
  have scan : Numeral.scan (Decimal.digits n) =
      some (⟨none, Decimal.digits n, false, [], none⟩, []) := by
    have sign : Numeral.scanSign (Decimal.digits n) =
        (none, Decimal.digits n) := by
      rw [digits]
      unfold Numeral.scanSign
      split
      all_goals simp_all
    have whole : Numeral.scanUnsigned (Decimal.digits n ++ []) =
        some (⟨none, Decimal.digits n, false, [], none⟩, []) :=
      scanUnsigned_digits n (by simp)
    rw [List.append_nil] at whole
    rw [Numeral.scan, sign]
    simp [whole]
  have start : (Decimal.digits n).dropWhile Text.isNumberBlank =
      Decimal.digits n := by
    rw [digits, List.dropWhile_cons, blank]
    rfl
  rw [Number.ofText, String.toList_ofList, start, scan]
  simp [Numeral.value, digitsValue_digits, nearest]

theorem finds_numberTerm (n : Nat) (digit : Text.isDigit c = false)
    (point : c ≠ '.') (lower : c ≠ 'e') (upper : c ≠ 'E') :
    Finds numberTerm (Decimal.digits n ++ c :: rest) (· = .number (nearest n))
      (c :: rest) := by
  have scan : scanNumber (Decimal.digits n ++ c :: rest) =
      some (Decimal.digits n).length := by
    rw [scanNumber,
      scanUnsigned_digits n (by simp [digit, point, lower, upper])]
    simp [Numeral.text]
  refine (token_finds scan).map fun word known => ?_
  rw [known, ofText_digits]

/-! ## Strings -/

theorem decode_escaped (s : List Char) :
    decodeStringFrom .plain (escaped s) = s := by
  induction s with
  | nil => rfl
  | cons c rest ih =>
      unfold escaped
      split
      · next newline =>
        subst newline
        exact congrArg ('\n' :: ·) ih
      · split
        · next other special =>
          rcases special with rfl | rfl
          · exact congrArg ('\\' :: ·) ih
          · exact congrArg ('"' :: ·) ih
        · next other plain =>
          rw [decodeStringFrom, if_neg fun h => plain (.inl h), ih]

theorem stringBodyLength_escaped (s rest : List Char) :
    stringBodyLength (escaped s ++ '"' :: rest) = (escaped s).length := by
  induction s with
  | nil => rfl
  | cons c s ih =>
      unfold escaped
      split
      · simp [stringBodyLength, ih]
      · split
        · simp [stringBodyLength, ih]
        · next newline plain =>
          have ordinary : ¬(c = '"' ∨ c = '\n' ∨ c = '\\') := by tauto
          rw [List.cons_append, stringBodyLength, if_neg ordinary, ih,
            List.length_cons]
          rintro _ _ rfl
          exact (ordinary (.inr (.inr rfl))).elim

theorem scanString_of_body {body : List Char}
    (closed : ∀ rest, stringBodyLength (body ++ '"' :: rest) = body.length)
    (rest : List Char) : scanString ('"' :: (body ++ '"' :: rest)) =
      some (body.length + 2) := by
  simp [scanString, closed]

theorem finds_stringTerm (s : String) :
    Finds stringTerm ('"' :: escaped s.toList ++ '"' :: rest)
      (fun t => t.check = .ok (.string s)) rest := by
  have scan : scanString (('"' :: (escaped s.toList ++ ['"'])) ++ rest) =
      some ('"' :: (escaped s.toList ++ ['"'])).length := by
    simpa using scanString_of_body (stringBodyLength_escaped s.toList) rest
  have found := token_finds scan
  rw [List.cons_append, List.append_assoc, List.singleton_append] at found
  refine found.map fun word known => ?_
  have body : word.body = String.ofList (escaped s.toList) := by
    rw [Word.body, known, String.toList_ofList, List.tail_cons,
      List.dropLast_concat]
  rw [Term.check, body, unescapeString, String.toList_ofList, decode_escaped,
    String.ofList_toList]

end Awk.Source
