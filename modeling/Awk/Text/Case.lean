import Awk.Text.CaseTable

/-!
Upper and lower case of characters and texts of every script.

A character may grow when its case changes.  A capital sigma at the end of a
word has a lower case form of its own.
-/

namespace Awk.Text

def lowerChar (n : Nat) : Nat :=
  if n < 128 then (if 0x41 ≤ n ∧ n ≤ 0x5a then n + 32 else n)
  else (CaseRun.move? lowerRuns n).getD n

def upperChars (n : Nat) : List Nat :=
  if n < 128 then [if 0x61 ≤ n ∧ n ≤ 0x7a then n - 32 else n]
  else
    match upperExpansions.lookup n with
    | some long => long
    | none => [(CaseRun.move? upperRuns n).getD n]

def isCased (n : Nat) : Bool := lowerChar n != n || upperChars n != [n]

def lowerAsciiChar (n : Nat) : Nat := if 0x41 ≤ n ∧ n ≤ 0x5a then n + 32 else n

def startsCased (cs : List Char) : Bool :=
  match cs.dropWhile fun c => inRuns caseIgnorableRuns c.toNat with
  | [] => false
  | c :: _ => inRuns casedRuns c.toNat

/-- Lower case of a capital sigma between the reversed text before it and the
text after it. -/
def lowerSigma (before after : List Char) : Char :=
  if startsCased before && !startsCased after then 'ς' else 'σ'

def lowerFrom (before : List Char) : List Char → List Char
  | [] => []
  | c :: rest =>
      let here : List Char :=
        if c = 'Σ' then [lowerSigma before rest]
        else if c.toNat = 0x130 then ['i', Char.ofNat 0x307]
        else [Char.ofNat (lowerChar c.toNat)]
      here ++ lowerFrom (c :: before) rest

def lower (s : String) : String := String.ofList (lowerFrom [] s.toList)

def upper (s : String) : String :=
  String.ofList (s.toList.flatMap fun c => (upperChars c.toNat).map Char.ofNat)

end Awk.Text
