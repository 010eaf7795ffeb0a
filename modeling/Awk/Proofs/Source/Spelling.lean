import Awk.Proofs.Source.Token

/-!
# Spelling strings

The token of a string and the meaning of its escapes are found in two passes
over the same backslashes.  A body spells a text when the token that starts at
its opening quote ends at its closing quote, whatever follows, and the escapes
in it stand for the text.  With three escapes every text can be spelled; with
octal digits alone, every text of characters below 512 can.
-/

namespace Awk.Source

open Awk.Source.Parser (token)

structure LiteralFor (body : List Char) (s : String) : Prop where
  token : ∀ offset following,
    token scanString ⟨'"' :: (body ++ '"' :: following), offset⟩ =
      ⟨.found ⟨String.ofList ('"' :: (body ++ ['"'])), offset⟩ ⟨following,
        offset + (body.length + 2)⟩, 0⟩
  meaning : unescapeString (String.ofList body) = s

theorem token_of_body {body : List Char}
    (closed : ∀ rest, stringBodyLength (body ++ '"' :: rest) = body.length)
    (offset : Nat) (following : List Char) :
    token scanString ⟨'"' :: (body ++ '"' :: following), offset⟩ =
      ⟨.found ⟨String.ofList ('"' :: (body ++ ['"'])), offset⟩ ⟨following,
        offset + (body.length + 2)⟩, 0⟩ := by
  have taken : (body ++ '"' :: following).take (body.length + 1) = body ++
      ['"'] := by
    simp [List.take_append]
  have left : (body ++ '"' :: following).drop (body.length + 1) =
      following := by
    simp [List.drop_append]
  simp [token, scanString_of_body closed, Cursor.drop, taken, left]

/-! ## Octal escapes -/

def octalDigit (n : Nat) : Char := Char.ofNat (48 + n % 8)

def octalEscape (c : Char) : List Char :=
  ['\\', octalDigit (c.toNat / 64), octalDigit (c.toNat / 8),
    octalDigit c.toNat]

theorem octalValue?_octalDigit (n : Nat) :
    octalValue? (octalDigit n) = some (n % 8) := by
  have digits : ∀ k < 8, octalValue? (Char.ofNat (48 + k)) = some k := by decide
  exact digits (n % 8) (Nat.mod_lt n (by decide))

theorem decode_octal_full (value : Nat) (rest : List Char) :
    decodeStringFrom (.octal value 0) rest = Char.ofNat value ::
      decodeStringFrom .plain rest := by
  cases rest <;> rfl

theorem decode_octalEscape {c : Char} (small : c.toNat < 512)
    (rest : List Char) :
    decodeStringFrom .plain (octalEscape c ++ rest) = c ::
      decodeStringFrom .plain rest := by
  have value : (c.toNat / 64 % 8 * 8 + c.toNat / 8 % 8) * 8 + c.toNat % 8 =
      c.toNat := by omega
  simp [octalEscape, decodeStringFrom, octalValue?_octalDigit,
    decode_octal_full, value]

theorem decode_flatMap_octalEscape {s : List Char}
    (small : ∀ c ∈ s, c.toNat < 512) :
    decodeStringFrom .plain (s.flatMap octalEscape) = s := by
  induction s with
  | nil => rfl
  | cons c s ih =>
      rw [List.forall_mem_cons] at small
      rw [List.flatMap_cons, decode_octalEscape small.1, ih small.2]

theorem octalDigit_plain (n : Nat) :
    ¬(octalDigit n = '"' ∨ octalDigit n = '\n' ∨ octalDigit n = '\\') := by
  have value := octalValue?_octalDigit n
  rintro (same | same | same) <;> simp [same, octalValue?] at value

theorem stringBodyLength_octalDigit (n : Nat) (rest : List Char) :
    stringBodyLength (octalDigit n :: rest) = stringBodyLength rest + 1 := by
  rw [stringBodyLength, if_neg (octalDigit_plain n)]
  rintro _ _ same
  exact absurd (.inr (.inr same)) (octalDigit_plain n)

theorem stringBodyLength_flatMap_octalEscape (s rest : List Char) :
    stringBodyLength (s.flatMap octalEscape ++ '"' :: rest) =
      (s.flatMap octalEscape).length := by
  induction s with
  | nil => rfl
  | cons c s ih =>
      simp [octalEscape, stringBodyLength, stringBodyLength_octalDigit] at ih ⊢
      omega

/-- Every text is spelled with its backslashes, quotes and newlines escaped, and
one of characters below 512 in octal. -/
theorem every_string_spelled (s : String) :
    LiteralFor (escaped s.toList) s ∧
      ((∀ c ∈ s.toList, c.toNat < 512) →
        LiteralFor (s.toList.flatMap octalEscape) s) := by
  refine ⟨⟨token_of_body (stringBodyLength_escaped s.toList), ?_⟩, fun small =>
    ⟨token_of_body (stringBodyLength_flatMap_octalEscape s.toList), ?_⟩⟩
  · rw [unescapeString, String.toList_ofList, decode_escaped,
      String.ofList_toList]
  · rw [unescapeString, String.toList_ofList, decode_flatMap_octalEscape small,
      String.ofList_toList]

end Awk.Source
