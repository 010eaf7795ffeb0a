import Awk.Proofs.Number.Numeral
import Awk.Proofs.Regex.Width
import Awk.Proofs.Source.Outcome

/-!
# What tokens are made of

A token takes at least one character and ends inside the text.  Whether it is
there, and how long it is, does not depend on what follows a newline, so that a
text that is followed by a newline has the same tokens.  A string is the
exception: its last backslash would take the newline in.
-/

namespace Awk.Source

open Awk.Source.Parser (Scanner token)

def Proper (scan : Scanner) : Prop := ∀ cs n, scan cs = some n → 1 ≤ n ∧
    n ≤ cs.length

def OnNewLine (t : List Char) : Prop := ∀ c ∈ t.head?, c = '\n'

variable {t : List Char}

theorem OnNewLine.eq (newline : OnNewLine t) : t = [] ∨ ∃ s, t = '\n' :: s := by
  cases t with
  | nil => exact .inl rfl
  | cons c s =>
      obtain rfl : c = '\n' := newline c rfl
      exact .inr ⟨s, rfl⟩

/-! ## Runs of characters -/

section Runs

variable {p : Char → Bool}

theorem OnNewLine.stop (newline : OnNewLine t) (other : p '\n' = false) :
    ∀ c ∈ t.head?, p c = false := by
  intro c first
  rw [newline c first, other]

theorem takeWhile_newline (newline : OnNewLine t) (other : p '\n' = false)
    (cs : List Char) :
    (cs ++ t).takeWhile p = cs.takeWhile p :=
  Text.takeWhile_append_stop (newline.stop other) cs

theorem dropWhile_newline (newline : OnNewLine t) (other : p '\n' = false)
    (cs : List Char) :
    (cs ++ t).dropWhile p = cs.dropWhile p ++ t :=
  Text.dropWhile_append_stop (newline.stop other) cs

theorem length_takeWhile_le (p : Char → Bool) (cs : List Char) :
    (cs.takeWhile p).length ≤ cs.length :=
  (List.takeWhile_sublist p).length_le

end Runs

/-! ## Words -/

theorem proper_scanWord {words : List String} (proper : areWords words = true) :
    Proper (scanWord words) := by
  intro cs n scanned
  unfold scanWord at scanned
  dsimp only at scanned
  split at scanned
  · rename_i among
    cases scanned
    refine ⟨?_, length_takeWhile_le _ cs⟩
    have member := List.contains_iff_mem.1 (Bool.and_eq_true_iff.1 among).1
    have head := List.all_eq_true.1 proper _ member
    rw [String.toList_ofList] at head
    cases run : wordRun cs with
    | nil =>
        rw [run] at head
        contradiction
    | cons c r => simp
  · contradiction

theorem scanWord_newline (newline : OnNewLine t) (words : List String)
    (cs : List Char) :
    scanWord words (cs ++ t) = scanWord words cs := by
  have run : wordRun (cs ++ t) = wordRun cs :=
    takeWhile_newline newline (by decide) cs
  have ends : endsWord (cs ++ t) = endsWord cs := by
    rw [endsWord, endsWord, dropWhile_newline newline (by decide)]
    cases cs.dropWhile Text.isAsciiWord with
    | cons c r => rfl
    | nil => obtain rfl | ⟨s, rfl⟩ := newline.eq <;> rfl
  rw [scanWord, scanWord, run, ends]

theorem proper_scanName : Proper scanName := by
  intro cs n scanned
  unfold scanName at scanned
  cases cs with
  | nil => contradiction
  | cons c r =>
      dsimp only [List.head?_cons] at scanned
      split at scanned
      · rename_i start
        cases scanned
        simp only [isNameStart, Bool.and_eq_true] at start
        refine ⟨?_, length_takeWhile_le _ _⟩
        rw [wordRun, List.takeWhile_cons, start.1]
        simp
      · contradiction

theorem scanName_newline (newline : OnNewLine t) (cs : List Char) :
    scanName (cs ++ t) = scanName cs := by
  cases cs with
  | cons c r =>
      have run : wordRun (c :: r ++ t) = wordRun (c :: r) :=
        takeWhile_newline newline (by decide) _
      rw [scanName, scanName, run]
      rfl
  | nil => obtain rfl | ⟨s, rfl⟩ := newline.eq <;> rfl

theorem proper_scanFreeName : Proper scanFreeName := by
  intro cs n scanned
  unfold scanFreeName at scanned
  split at scanned
  · contradiction
  · exact proper_scanName cs n scanned

theorem scanFreeName_newline (newline : OnNewLine t) (cs : List Char) :
    scanFreeName (cs ++ t) = scanFreeName cs := by
  rw [scanFreeName, scanFreeName, scanWord_newline newline,
    scanName_newline newline]

/-! ## Numbers -/

section Numbers

open Numeral

theorem proper_scanNumber : Proper scanNumber := by
  intro cs n scanned
  obtain ⟨⟨numeral, rest⟩, found, rfl⟩ := Option.map_eq_some_iff.1 scanned
  obtain ⟨-, rfl, filled⟩ := scanUnsigned_eq_some found
  exact ⟨filled, by simp⟩

theorem OnNewLine.numeralStops (newline : OnNewLine t) : Numeral.Stops t := by
  intro c first
  rw [newline c first]
  decide

theorem scanNumber_newline (newline : OnNewLine t) (cs : List Char) :
    scanNumber (cs ++ t) = scanNumber cs := by
  unfold scanNumber
  rw [scanUnsigned_stop newline.numeralStops, Option.map_map]
  rfl

end Numbers

/-! ## Strings -/

theorem stringBodyLength_le (cs : List Char) :
    stringBodyLength cs ≤ cs.length := by
  fun_induction stringBodyLength cs with
  | case1 => simp
  | case2 c rest ih => simpa using ih
  | case3 c rest => simp
  | case4 c rest _ _ ih => simpa using ih

def EndsEscaping (cs : List Char) : Prop :=
  cs.drop (stringBodyLength cs) = ['\\']

theorem stringBodyLength_newline (newline : OnNewLine t) {cs : List Char}
    (ends : ¬EndsEscaping cs) :
    stringBodyLength (cs ++ t) = stringBodyLength cs := by
  fun_induction stringBodyLength cs with
  | case1 =>
      cases t with
      | nil => rfl
      | cons c s =>
          obtain rfl : c = '\n' := newline c rfl
          rfl
  | case2 c rest ih => exact congrArg (· + 2) (ih ends)
  | case3 c rest other stops =>
      cases rest with
      | nil =>
          have bare : c ≠ '\\' := by
            rintro rfl
            exact ends rfl
          rw [List.cons_append, stringBodyLength, if_pos stops]
          rintro _ _ rfl
          contradiction
      | cons d rest =>
          have bare : c ≠ '\\' := by
            rintro rfl
            exact other d rest rfl rfl
          rw [List.cons_append, stringBodyLength, if_pos stops]
          rintro _ _ rfl
          contradiction
  | case4 c rest other plain ih =>
      have bare : c ≠ '\\' := fun same => plain (.inr (.inr same))
      have other' (d : Char) (r : List Char) : c = '\\' → rest ++ t = d :: r →
          False := fun same _ => bare same
      rw [List.cons_append, stringBodyLength.eq_3 c (rest ++ t) other',
        if_neg plain, ih]
      refine fun ends' => ends ?_
      rwa [EndsEscaping, stringBodyLength.eq_3 c rest other, if_neg plain]

def OpensString (P : List Char → Prop) (cs : List Char) : Prop :=
  ∃ rest, cs = '"' :: rest ∧ P rest

theorem scanString_newline (newline : OnNewLine t) {cs : List Char}
    (ends : ¬OpensString EndsEscaping cs) :
    scanString (cs ++ t) = scanString cs := by
  cases cs with
  | nil => obtain rfl | ⟨s, rfl⟩ := newline.eq <;> rfl
  | cons c r =>
      by_cases quote : c = '"'
      · subst quote
        have body : stringBodyLength (r ++ t) = stringBodyLength r :=
          stringBodyLength_newline newline fun ends' => ends ⟨r, rfl, ends'⟩
        have inside := stringBodyLength_le r
        rw [List.cons_append, scanString, scanString, body,
          List.drop_append_of_le_length inside]
        cases r.drop (stringBodyLength r) with
        | cons d r' => rfl
        | nil => obtain rfl | ⟨s, rfl⟩ := newline.eq <;> rfl
      · have other (cs : List Char) : scanString (c :: cs) = none := by
          unfold scanString
          split <;> simp_all
        rw [List.cons_append, other, other]

theorem scanOpenString_newline (newline : OnNewLine t) {cs : List Char}
    (ends : ¬OpensString EndsEscaping cs) :
    scanOpenString (cs ++ t) = scanOpenString cs := by
  cases cs with
  | nil => obtain rfl | ⟨s, rfl⟩ := newline.eq <;> rfl
  | cons c r =>
      by_cases quote : c = '"'
      · subst quote
        have body : stringBodyLength (r ++ t) = stringBodyLength r :=
          stringBodyLength_newline newline fun ends' => ends ⟨r, rfl, ends'⟩
        rw [List.cons_append, scanOpenString, scanOpenString, body]
      · have other (cs : List Char) : scanOpenString (c :: cs) = none := by
          unfold scanOpenString
          split <;> simp_all
        rw [List.cons_append, other, other]

theorem proper_scanString : Proper scanString := by
  intro cs n scanned
  unfold scanString at scanned
  split at scanned
  · rename_i rest
    dsimp only at scanned
    split at scanned
    · rename_i closed
      cases scanned
      have inside : stringBodyLength rest < rest.length := by
        by_contra outside
        rw [List.drop_eq_nil_of_le (by omega)] at closed
        contradiction
      rw [List.length_cons]
      omega
    · contradiction
  · contradiction

theorem proper_scanOpenString : Proper scanOpenString := by
  intro cs n scanned
  unfold scanOpenString at scanned
  split at scanned
  · rename_i rest
    cases scanned
    have inside := stringBodyLength_le rest
    rw [List.length_cons]
    omega
  · contradiction

/-! ## Patterns -/

def isFilled (pattern : Except Regex.PatternError Regex.Pattern) : Bool :=
  match pattern with
  | .ok p => 1 ≤ p.node.least
  | .error _ => true

theorem proper_scanPattern {pattern : Except Regex.PatternError Regex.Pattern}
    (filled : isFilled pattern = true) :
    Proper (scanPattern pattern) := by
  intro cs n scanned
  unfold scanPattern at scanned
  split at scanned
  · rename_i p _
    obtain ⟨m, matched, rfl⟩ := Option.map_eq_some_iff.1 scanned
    have inside := length_takeWhile_le (· != '\n') cs
    have moved : 1 ≤ p.node.least := of_decide_eq_true filled
    have stop := p.matchAt?_stop matched (Nat.zero_le _)
    rw [List.size_toArray] at stop
    omega
  · contradiction

theorem proper_scanRegex : Proper scanRegex :=
  proper_scanPattern (by decide +kernel)

theorem proper_scanOpenRegex : Proper scanOpenRegex :=
  proper_scanPattern (by decide +kernel)

theorem scanPattern_newline (newline : OnNewLine t)
    (pattern : Except Regex.PatternError Regex.Pattern) (cs : List Char) :
    scanPattern pattern (cs ++ t) = scanPattern pattern cs := by
  have line : (cs ++ t).takeWhile (· != '\n') = cs.takeWhile (· != '\n') :=
    takeWhile_newline newline (by decide) cs
  cases cs with
  | cons c r => 
      unfold scanPattern
      rw [line]
      rfl
  | nil =>
      obtain rfl | ⟨s, rfl⟩ := newline.eq
      · rfl
      · cases pattern <;> rfl

/-! ## Operators -/

def Operator.isInline {α : Type} (op : Operator α) : Bool :=
  !op.text.toList.isEmpty && !op.text.toList.contains '\n' &&
    !op.notBefore.contains '\n'

theorem dropFront?_newline (newline : OnNewLine t) {front : List Char}
    (inline : front.contains '\n' = false) (cs : List Char) :
    Text.dropFront? front (cs ++ t) =
      (Text.dropFront? front cs).map (· ++ t) := by
  induction front generalizing cs with
  | nil => rfl
  | cons f front ih =>
      simp only [List.contains_cons, Bool.or_eq_false_iff, beq_eq_false_iff_ne]
        at inline
      cases cs with
      | nil =>
          obtain rfl | ⟨s, rfl⟩ := newline.eq
          · rfl
          · exact if_neg (Ne.symm inline.1)
      | cons c cs =>
          rw [List.cons_append, Text.dropFront?, Text.dropFront?]
          split
          · exact ih inline.2 cs
          · rfl

section Operators

variable {α : Type} {op : Operator α} {ops : List (Operator α)}

theorem Operator.scan_newline (newline : OnNewLine t)
    (inline : op.isInline = true) (cs : List Char) :
    op.scan (cs ++ t) = op.scan cs := by
  simp only [isInline, Bool.and_eq_true, Bool.not_eq_true'] at inline
  obtain ⟨⟨-, text⟩, exceptions⟩ := inline
  unfold Operator.scan
  rw [dropFront?_newline newline text]
  cases Text.dropFront? op.text.toList cs with
  | none => rfl
  | some rest =>
      cases rest with
      | cons c r => rfl
      | nil =>
          obtain rfl | ⟨s, rfl⟩ := newline.eq
          · rfl
          · simpa using exceptions

theorem find?_scan_newline (newline : OnNewLine t)
    (inline : ops.all Operator.isInline = true) (cs : List Char) :
    ops.find? (fun op => (op.scan (cs ++ t)).isSome) = ops.find? fun op =>
      (op.scan cs).isSome := by
  induction ops with
  | nil => rfl
  | cons op ops ih =>
      rw [List.all_cons, Bool.and_eq_true] at inline
      rw [List.find?_cons, List.find?_cons, op.scan_newline newline inline.1,
        ih inline.2]

theorem any_scan_newline (newline : OnNewLine t)
    (inline : ops.all Operator.isInline = true) (cs : List Char) :
    ops.any (fun op => (op.scan (cs ++ t)).isSome) = ops.any fun op =>
      (op.scan cs).isSome := by
  rw [← List.isSome_find?, ← List.isSome_find?,
    find?_scan_newline newline inline]

theorem startsOperator_newline (newline : OnNewLine t) (cs : List Char) :
    startsOperator (cs ++ t) = startsOperator cs := by
  rw [startsOperator, startsOperator, scanWord_newline newline,
    any_scan_newline newline (by decide)]

end Operators

/-! ## Ends -/

theorem atStatementEnd_newline (newline : OnNewLine t) (cs : List Char) :
    atStatementEnd (cs ++ t) = atStatementEnd cs := by
  cases cs with
  | nil => obtain rfl | ⟨s, rfl⟩ := newline.eq <;> rfl
  | cons c r => rfl

theorem atRuleEnd_newline (newline : OnNewLine t) (cs : List Char) :
    atRuleEnd (cs ++ t) = atRuleEnd cs := by
  cases cs with
  | nil => obtain rfl | ⟨s, rfl⟩ := newline.eq <;> rfl
  | cons c r => rfl

end Awk.Source
