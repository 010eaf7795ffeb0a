import Awk.Number.Binary

/-!
Random numbers: the 32-bit twister with 624 words of state, seeded by a number.

A number seeds the generator through its residue modulo `2 ^ 61 - 1`, cut into
32-bit words.  A number without a value has no residue: what it seeds with is
given.  Two words of output make a number below one.
-/

namespace Awk

structure Twister where
  words : Array UInt32
  next : Nat
  deriving DecidableEq, Repr

namespace Twister

def length : Nat := 624

def word (words : Array UInt32) (i : Nat) : UInt32 := words.getD i 0

def mix (w factor : UInt32) : UInt32 := (w ^^^ (w >>> 30)) * factor

/-! ## Seeding -/

def ofWord (seed : UInt32) : Array UInt32 :=
  (List.range (length - 1)).foldl (fun words i =>
    words.push (mix (word words i) 1812433253 + (i + 1).toUInt32)) #[seed]

structure Seeding where
  words : Array UInt32
  index : Nat

/-- Change one word.  Behind the last word the first one is made a copy of
it. -/
def Seeding.put (s : Seeding) (w : UInt32) : Seeding :=
  let words := s.words.setIfInBounds s.index w
  if s.index + 1 < length then ⟨words, s.index + 1⟩
  else ⟨words.setIfInBounds 0 (word words (length - 1)), 1⟩

def Seeding.addKey (key : Array UInt32) (s : Seeding) (step : Nat) : Seeding :=
  let j := step % key.size
  s.put ((word s.words s.index ^^^ mix (word s.words (s.index - 1)) 1664525) +
    key.getD j 0 + j.toUInt32)

def Seeding.scramble (s : Seeding) (_ : Nat) : Seeding :=
  s.put ((word s.words s.index ^^^ mix (word s.words (s.index - 1))
    1566083941) - s.index.toUInt32)

def ofKey (key : Array UInt32) : Twister :=
  let start : Seeding := ⟨ofWord 19650218, 1⟩
  let keyed :=
    (List.range (max length key.size)).foldl (Seeding.addKey key) start
  let mixed := (List.range (length - 1)).foldl Seeding.scramble keyed
  ⟨mixed.words.setIfInBounds 0 0x80000000, length⟩

def keyOf (n : Nat) : Array UInt32 :=
  let high := (n / Nat.pow 2 32).toUInt32
  if high = 0 then #[n.toUInt32] else #[n.toUInt32, high]

/-! ## Output -/

def twisted (upper lower far : UInt32) : UInt32 :=
  let y := (upper &&& 0x80000000) ||| (lower &&& 0x7fffffff)
  far ^^^ (y >>> 1) ^^^ (if y &&& 1 = 0 then 0 else 0x9908b0df)

def refresh (words : Array UInt32) : Array UInt32 :=
  (List.range length).foldl
    (fun ws i =>
      ws.setIfInBounds i (twisted (word ws i) (word ws ((i + 1) % length))
        (word ws ((i + 397) % length))))
    words

def temper (y : UInt32) : UInt32 :=
  let y := y ^^^ (y >>> 11)
  let y := y ^^^ ((y <<< 7) &&& 0x9d2c5680)
  let y := y ^^^ ((y <<< 15) &&& 0xefc60000)
  y ^^^ (y >>> 18)

def nextWord (t : Twister) : UInt32 × Twister :=
  let t := if t.next < length then t else ⟨refresh t.words, 0⟩
  (temper (word t.words t.next), { t with next := t.next + 1 })

def nextNumber (t : Twister) : Number × Twister :=
  let (a, t) := t.nextWord
  let (b, t) := t.nextWord
  let n := (a >>> 5).toNat * 67108864 + (b >>> 6).toNat
  (.real (Float.ofNat n / 9007199254740992.0), t)

end Twister

/-! ## Seeds -/

/-- The residue of a number modulo `2 ^ 61 - 1`, with its sign, if it has
one. -/
def Number.residue? : Number → Option Int
  | .nan _ => none
  | .real x =>
      match Binary.ofFloat? x with
      | none => some (if x < 0.0 then -314159 else 314159)
      | some b =>
          let p := Nat.pow 2 61 - 1
          let power := Nat.pow 2 (b.exponent % 61).toNat
          let magnitude : Int := (b.significand * power % p : Nat)
          let signed := if b.negative then -magnitude else magnitude
          some (if signed = -1 then -2 else signed)

structure Random where
  seed : Number
  twister : Twister
  strays : Nat := 0
  deriving DecidableEq, Repr

namespace Random

def initial : Random := ⟨Number.zero, Twister.ofKey #[0], 0⟩

def twisterOf (n : Int) : Twister :=
  .ofKey (Twister.keyOf (n % (Nat.pow 2 64 : Nat)).toNat)

/-- Seed by a number.  One without a residue takes its turn in `strays`. -/
def reseed (r : Random) (strays : Nat → Int) (seed : Number) : Random :=
  match seed.residue? with
  | some n => { r with seed := seed, twister := twisterOf n }
  | none => ⟨seed, twisterOf (strays r.strays), r.strays + 1⟩

def next (r : Random) : Number × Random :=
  let (x, twister) := r.twister.nextNumber
  (x, { r with twister := twister })

end Random

end Awk
