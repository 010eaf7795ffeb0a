import Awk.Number.Binary
import Mathlib

/-!
# Counting with doubles

The number of the record is a double, and a rule applies only to a record whose
number is finite.  Counting never leaves the finite numbers: far from zero,
adding one gives back the same double, and the greatest double is no exception,
since one is less than half of the distance to the next power of two.
-/

namespace Awk

open Float.Model Float.Model.UnpackedFloat

def Representable : UnpackedFloat → Prop
  | .zero _ => True
  | .finite _ _ e _ => e ≤ 971
  | .infinity _ | .notANumber => False

/-! ## Rounding -/

section Rounding

theorem targetExponent_binary64 (t : Int) :
    Format.binary64.targetExponent t = max (t - 53) (-1074) := rfl

theorem mantissa_shiftRight (em : ExtendedMantissa) (k : Nat) :
    (em >>> k).mantissa = em.mantissa / 2 ^ k := by
  induction k with
  | zero => simp [HShiftRight.hShiftRight, Nat.repeat]
  | succ k ih =>
      change (em >>> k).mantissa / 2 = _
      rw [ih, Nat.div_div_eq_div_mul, Nat.pow_succ]

theorem roundBit_shiftRight (em : ExtendedMantissa) (k : Nat) :
    (em >>> (k + 1)).roundBit = (em.mantissa / 2 ^ k % 2 != 0) := by
  change ((em >>> k).mantissa % 2 != 0) = _
  rw [mantissa_shiftRight]

theorem roundedMantissa_le (em : ExtendedMantissa) :
    em.roundedMantissa ≤ em.mantissa + 1 := by
  obtain ⟨m, r, s⟩ := em
  cases r <;> cases s <;>
    simp [ExtendedMantissa.roundedMantissa, ExtendedMantissa.accuracy,
      Accuracy.roundToNearestEven]
  omega

theorem roundedMantissa_of_roundBit {em : ExtendedMantissa}
    (low : em.roundBit = false) :
    em.roundedMantissa = em.mantissa := by
  obtain ⟨m, r, s⟩ := em
  obtain rfl : r = false := low
  cases s <;> rfl

theorem roundWithAccuracy_representable {sign : Sign} {m : Nat} {e : Int}
    {em : ExtendedMantissa} {e₁ : Int} {accuracy : Accuracy}
    (first : shiftToTargetExponent Format.binary64 m e accuracy = (em, e₁))
    (low : -1074 ≤ e₁) (fits : em.roundedMantissa < 2 ^ 53 ∧ e₁ ≤ 971 ∨
      em.roundedMantissa ≤ 2 ^ 53 ∧ e₁ ≤ 970) :
    Representable (roundWithAccuracy Format.binary64 sign m e accuracy) := by
  -- The second shift takes at most one more bit, and none if the rounded
  -- mantissa fits.
  rw [roundWithAccuracy, first]
  dsimp only [shiftToTargetExponent, shiftToExponent]
  split
  · trivial
  · rename_i positive
    have rounded : em.roundedMantissa ≠ 0 := by
      intro zero
      apply positive
      rw [zero, mantissa_shiftRight]
      exact Nat.zero_div _
    change e₁ +
      ((Format.binary64.targetExponent
        (totalExponent em.roundedMantissa e₁) - e₁).toNat : Int) ≤ 971
    rw [targetExponent_binary64, totalExponent]
    obtain ⟨small, high⟩ | ⟨small, high⟩ := fits
    · have := (Nat.log2_lt rounded).2 small
      omega
    · have :=
        (Nat.log2_lt rounded).2 (Nat.lt_of_le_of_lt small
          (by decide : 2 ^ 53 < 2 ^ 54))
      omega

theorem div_lt_of_targetExponent {m k s : Nat}
    (target : (m.log2 : Int) + 1 - k - 53 ≤ s - k) : m / 2 ^ s < 2 ^ 53 := by
  rw [Nat.div_lt_iff_lt_mul (Nat.two_pow_pos s), ← Nat.pow_add]
  exact Nat.lt_of_lt_of_le Nat.lt_log2_self
    (Nat.pow_le_pow_right (by decide) (by omega))

/-- A magnitude that is nearer to the greatest double than to the next power of
two is rounded to a double. -/
theorem roundWithAccuracy_exact_representable {sign : Sign} {m k : Nat}
    (positive : m ≠ 0) (small : m < (2 ^ 54 - 1) * 2 ^ (970 + k))
    (below : (-k : Int) ≤ Format.binary64.targetExponent
      (totalExponent m (-k))) :
    Representable (roundWithAccuracy Format.binary64 sign m (-k) .exact) := by
  have bits : m.log2 < 1024 + k := by
    rw [Nat.log2_lt positive]
    calc m < (2 ^ 54 - 1) * 2 ^ (970 + k) := small
      _ ≤ 2 ^ 54 * 2 ^ (970 + k) := Nat.mul_le_mul_right _ (by decide)
      _ = 2 ^ (1024 + k) := by rw [← Nat.pow_add]; congr 1; omega
  rw [targetExponent_binary64, totalExponent] at below
  obtain ⟨s, shift⟩ : ∃ s : Nat, max ((m.log2 : Int) + 1 + -k - 53) (-1074) =
      s - k :=
    ⟨(max ((m.log2 : Int) + 1 + -k - 53) (-1074) + k).toNat, by omega⟩
  have first : shiftToTargetExponent Format.binary64 m (-k) .exact =
      (ExtendedMantissa.mk m false false >>> s, (s : Int) - k) := by
    have amount : ((s : Int) - k - -k).toNat = s := by omega
    rw [shiftToTargetExponent, targetExponent_binary64, totalExponent, shift,
      shiftToExponent, amount]
    congr 1
    omega
  refine roundWithAccuracy_representable first (by omega) ?_
  have quotient : (ExtendedMantissa.mk m false false >>> s).mantissa =
      m / 2 ^ s := mantissa_shiftRight _ s
  have fits : m / 2 ^ s < 2 ^ 53 := div_lt_of_targetExponent (k := k) (by omega)
  have rounded := roundedMantissa_le (ExtendedMantissa.mk m false false >>> s)
  by_cases last : (s : Int) - k ≤ 970
  · exact .inr ⟨by omega, last⟩
  · -- the exponent of the greatest double: the bit behind the mantissa decides
    obtain rfl : s = 970 + k + 1 := by omega
    refine .inl ⟨?_, by omega⟩
    have half : m / 2 ^ (970 + k) < 2 ^ 54 - 1 :=
      (Nat.div_lt_iff_lt_mul (Nat.two_pow_pos _)).2 small
    have whole : m / 2 ^ (970 + k + 1) = m / 2 ^ (970 + k) / 2 := by
      rw [Nat.div_div_eq_div_mul, Nat.pow_succ]
    cases bit : (ExtendedMantissa.mk m false false >>> (970 + k + 1)).roundBit
      with
    | false =>
        rw [roundedMantissa_of_roundBit bit]
        omega
    | true =>
        rw [roundBit_shiftRight, bne_iff_ne] at bit
        change m / 2 ^ (970 + k) % 2 ≠ 0 at bit
        omega

theorem log2_shiftLeft {m : Nat} (positive : m ≠ 0) (d : Nat) :
    (m <<< d).log2 = m.log2 + d := by
  induction d with
  | zero => rfl
  | succ d ih =>
      rw [Nat.shiftLeft_succ,
        Nat.log2_two_mul (mt Nat.shiftLeft_eq_zero_iff.1 positive), ih]
      rfl

theorem round_representable {sign : Sign} {m k : Nat} (positive : m ≠ 0)
    (small : m < (2 ^ 54 - 1) * 2 ^ (970 + k)) :
    Representable (UnpackedFloat.round Format.binary64 sign m (-k)) := by
  rw [UnpackedFloat.round]
  dsimp only [decreaseExponent]
  -- More digits behind the point change neither the magnitude nor the exponent
  -- to aim at.
  generalize amount :
    ((-k : Int) - Format.binary64.targetExponent (totalExponent m (-k))).toNat =
      d
  have exponent : (-k : Int) - d = -((k + d : Nat) : Int) := by omega
  have total : totalExponent (m <<< d) (-((k + d : Nat) : Int)) =
      totalExponent m (-k) := by
    rw [totalExponent, totalExponent, log2_shiftLeft positive]
    omega
  rw [exponent]
  apply roundWithAccuracy_exact_representable
    (mt Nat.shiftLeft_eq_zero_iff.1 positive)
  · rw [Nat.shiftLeft_eq, ← Nat.add_assoc, Nat.pow_add _ _ d, ← Nat.mul_assoc]
    exact Nat.mul_lt_mul_of_pos_right small (Nat.two_pow_pos d)
  · rw [total]
    omega

end Rounding

/-! ## Adding one -/

theorem normalize_representable {m : Int} {k : Nat} {sign : Sign}
    (small : m.natAbs < (2 ^ 54 - 1) * 2 ^ (970 + k)) :
    Representable (UnpackedFloat.normalize Format.binary64 m (-k) sign) := by
  rw [UnpackedFloat.normalize]
  split <;> rename_i order
  · have negative := Int.compare_eq_lt.1 order
    exact round_representable (by omega) (by omega)
  · trivial
  · have positive := Int.compare_eq_gt.1 order
    exact round_representable (by omega) (by omega)

def exponentBitsOf (x : Float) : BitVec 11 :=
  @unpackExponent Format.binary64 x.toModel.toBits.toBitVec

theorem ofFloat?_isSome_iff {x : Float} : (Binary.ofFloat? x).isSome ↔
    exponentBitsOf x ≠ -1#11 := by
  have biased : (exponentBitsOf x).toNat = x.toBits.toNat / Nat.pow 2 52 %
      Nat.pow 2 11 := by
    simp only [exponentBitsOf, unpackExponent, BitVec.toNat_cast,
      BitVec.extractLsb_toNat, Nat.shiftRight_eq_div_pow]
    rfl
  rw [ne_eq, ← BitVec.toNat_inj, biased, Binary.ofFloat?]
  change _ ↔ ¬ _ = 2047
  split
  · simp [*]
  · split <;> simp [*]

theorem unpack_cases {x : Float} (finite : (Binary.ofFloat? x).isSome) :
    (∃ s, x.toModel.unpack = .zero s) ∨
      ∃ s m e positive, x.toModel.unpack = .finite s m e positive ∧ m < 2 ^ 53 ∧
      e ≤ 971 := by
  have exponent : @unpackExponent Format.binary64 x.toModel.toBits.toBitVec ≠
      -1#_ := ofFloat?_isSome_iff.1 finite
  have bound : (exponentBitsOf x).toNat < 2047 := by
    have bits := (exponentBitsOf x).isLt
    have other : (exponentBitsOf x).toNat ≠ 2047 :=
      fun all => exponent (BitVec.eq_of_toNat_eq all)
    omega
  have fraction :
      (@unpackMantissa Format.binary64 x.toModel.toBits.toBitVec).toNat < 2 ^
        52 := BitVec.isLt _
  rw [Float.Model.unpack, UnpackedFloat.unpack, if_neg exponent]
  split
  · split
    · exact .inl ⟨_, rfl⟩
    · rename_i none nonzero
      refine .inr ⟨_, _, _, Nat.pos_of_ne_zero fun zero =>
        nonzero (BitVec.eq_of_toNat_eq zero), rfl,
        Nat.lt_trans fraction (by decide), ?_⟩
      rw [none]
      decide
  · have implicit (v : BitVec 52) : 0 < (1#1 ++ v).toNat := by
      rw [BitVec.toNat_append]
      exact Nat.lt_of_lt_of_le (by decide) Nat.left_le_or
    refine .inr ⟨_, _, _, implicit _, rfl, BitVec.isLt _, ?_⟩
    change ((exponentBitsOf x).toNat : Int) - (1023 + 52) ≤ 971
    omega

theorem ofFloat?_pack {f : UnpackedFloat} (fits : Representable f) :
    (Binary.ofFloat? ⟨.pack f⟩).isSome := by
  rw [ofFloat?_isSome_iff]
  change unpackExponent (UnpackedFloat.pack Format.binary64 f) ≠ _
  cases f with
  | zero s =>
      rw [UnpackedFloat.pack, packedZero, unpackExponent_packComponents]
      decide
  | finite s m e positive =>
      have high : e ≤ 971 := fits
      have biased : (e + (1023 : Nat) + (52 : Nat)).toNat < 2047 := by omega
      rw [UnpackedFloat.pack]
      change @unpackExponent Format.binary64 (if 2 ^ 11 ≤
        (e + (1023 : Nat) + (52 : Nat)).toNat + 1 then _ else _) ≠ _
      rw [if_neg (by omega)]
      split
      · rw [unpackExponent_packComponents]
        intro all
        have same : (e + (1023 : Nat) + (52 : Nat)).toNat % 2 ^ 11 = 2047 :=
          congrArg BitVec.toNat all
        omega
      · rw [unpackExponent_packComponents]
        decide
  | infinity s => exact fits.elim
  | notANumber => exact fits.elim

theorem add_one_representable {x : Float}
    (finite : (Binary.ofFloat? x).isSome) :
    Representable (UnpackedFloat.add Format.binary64 x.toModel.unpack
      (1.0 : Float).toModel.unpack) := by
  -- Both are brought to one exponent, and one is far too little to leave the
  -- range.
  have one : (1.0 : Float).toModel.unpack =
      .finite .positive (2 ^ 52) (-52) (by decide) := rfl
  rw [one]
  obtain ⟨s, zero⟩ | ⟨s, m, e, positive, unpacked, bits, high⟩ :=
    unpack_cases finite
  · rw [zero]
    change (-52 : Int) ≤ 971
    decide
  · rw [unpacked, UnpackedFloat.add]
    dsimp only [decreaseExponent]
    obtain ⟨k, common⟩ : ∃ k : Nat, min e (-52) = -k :=
      ⟨(-min e (-52)).toNat, by omega⟩
    obtain ⟨j, first⟩ : ∃ j : Nat, (e - -k).toNat = j := ⟨_, rfl⟩
    have second : (-52 - -(k : Int)).toNat = k - 52 := by omega
    rw [common, first, second]
    apply normalize_representable
    have reach : m <<< j ≤ (2 ^ 53 - 1) * 2 ^ (971 + k) := by
      rw [Nat.shiftLeft_eq]
      exact Nat.mul_le_mul (by omega)
        (Nat.pow_le_pow_right (by decide) (by omega))
    have unit : 2 ^ 52 <<< (k - 52) < 2 ^ (970 + k) := by
      rw [Nat.shiftLeft_eq, ← Nat.pow_add]
      exact Nat.pow_lt_pow_right (by decide) (by omega)
    have double : 2 ^ (971 + k) = 2 ^ (970 + k) * 2 := by
      rw [← Nat.pow_succ]; congr 1; omega
    generalize m <<< j = a at *
    generalize 2 ^ 52 <<< (k - 52) = b at *
    cases s with
    | positive =>
        change ((a : Int) + b).natAbs < _
        omega
    | negative =>
        change (-(a : Int) + b).natAbs < _
        omega

theorem isNaN_of_ofFloat? {x : Float} (finite : (Binary.ofFloat? x).isSome) :
    x.isNaN = false := by
  change x.toModel.unpack.isNaN = false
  obtain ⟨s, zero⟩ | ⟨s, m, e, positive, unpacked, -⟩ := unpack_cases finite
  · rw [zero]
    rfl
  · rw [unpacked]
    rfl

/-- The number behind a finite number is finite. -/
theorem Number.truncate?_add_one {x : Number} (finite : x.truncate?.isSome) :
    (x + Number.one).truncate?.isSome := by
  cases x with
  | nan s => simp [truncate?] at finite
  | real x =>
      have finite : (Binary.ofFloat? x).isSome := by
        simpa [truncate?] using finite
      have sum : (Binary.ofFloat? (x + 1.0)).isSome :=
        ofFloat?_pack (add_one_representable finite)
      have defined : (x + 1.0).isNaN = false := isNaN_of_ofFloat? sum
      change (if (x + 1.0).isNaN = true then Number.nan true
        else .real (x + 1.0)).truncate?.isSome
      rw [defined]
      simpa [truncate?] using sum

end Awk
