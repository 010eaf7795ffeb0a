/-!
Texts as UTF-8, and what is wrong with bytes that are not.

A first byte says how many bytes follow it and which values they may have.  The
first place where the bytes do not go on that way is the flaw that is reported.
-/

namespace Awk.Text.Utf8

inductive FlawKind where
  | badStart
  | badContinuation
  | cutOff
  deriving DecidableEq, Repr

structure Flaw where
  position : Nat
  bytes : List UInt8
  kind : FlawKind
  deriving DecidableEq, Repr

/-- The least and the greatest value of every byte that follows a first byte. -/
def followers? (first : UInt8) : Option (List (UInt8 × UInt8)) :=
  if first < 0x80 then some []
  else if first < 0xc2 then none
  else if first < 0xe0 then some [(0x80, 0xbf)]
  else if first < 0xf0 then
    let second := if first = 0xe0 then (0xa0, 0xbf)
      else if first = 0xed then (0x80, 0x9f) else (0x80, 0xbf)
    some [second, (0x80, 0xbf)]
  else if first < 0xf5 then
    let second := if first = 0xf0 then (0x90, 0xbf)
      else if first = 0xf4 then (0x80, 0x8f) else (0x80, 0xbf)
    some [second, (0x80, 0xbf), (0x80, 0xbf)]
  else none

def follow : List (UInt8 × UInt8) → List UInt8 →
    Except (List UInt8 × FlawKind) Unit
  | [], _ => .ok ()
  | _ :: _, [] => .error ([], .cutOff)
  | (low, high) :: ranges, b :: bytes =>
      if low ≤ b ∧ b ≤ high then (follow ranges bytes).mapError
        fun (seen, kind) => (b :: seen, kind)
      else .error ([], .badContinuation)

/-- The first flaw of bytes that start at `position`; `skipped` of them are
known to be sound. -/
def flawFrom? : (skipped position : Nat) → List UInt8 → Option Flaw
  | _, _, [] => none
  | n + 1, position, _ :: bytes => flawFrom? n (position + 1) bytes
  | 0, position, b :: bytes =>
      match followers? b with
      | none => some ⟨position, [b], .badStart⟩
      | some ranges =>
          match follow ranges bytes with
          | .ok () => flawFrom? ranges.length (position + 1) bytes
          | .error (seen, kind) => some ⟨position, b :: seen, kind⟩

def decode (bytes : ByteArray) : Except Flaw String :=
  match String.fromUTF8? bytes with
  | some text => .ok text
  | none => .error ((flawFrom? 0 0 bytes.toList).getD ⟨0, [], .badStart⟩)

/-! ## Wording -/

def FlawKind.reason : FlawKind → String
  | .badStart => "invalid start byte"
  | .badContinuation => "invalid continuation byte"
  | .cutOff => "unexpected end of data"

def hexByte (b : UInt8) : String :=
  String.ofList [Nat.digitChar (b.toNat / 16), Nat.digitChar (b.toNat % 16)]

def Flaw.message (f : Flaw) : String :=
  let place :=
    match f.bytes with
    | [b] => "byte 0x" ++ hexByte b ++ " in position " ++ toString f.position
    | bytes =>
        "bytes in position " ++ toString f.position ++ "-" ++
          toString (f.position + bytes.length - 1)
  "'utf-8' codec can't decode " ++ place ++ ": " ++ f.kind.reason

end Awk.Text.Utf8
