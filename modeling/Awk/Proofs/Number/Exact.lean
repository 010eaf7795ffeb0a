import Awk.Proofs.Counting

/-!
# Counts as doubles

A count up to `2 ^ 53` is a double without loss.  Its bits are shifted until
there are 53 of them, and nothing is left to round; so the nearest integer to
the double is the count.
-/

namespace Awk

open Float.Model Float.Model.UnpackedFloat

structure Normal (m : Nat) (e : Int) : Prop where
  low : 2 ^ 52 ≤ m
  high : m < 2 ^ 53
  least : -1074 ≤ e
  most : e ≤ 971

namespace Normal

variable {m k : Nat} {e : Int}

theorem pos (h : Normal m e) : 0 < m := Nat.lt_of_lt_of_le (by decide) h.low

theorem log2_eq (h : Normal m e) : m.log2 = 52 :=
  (Nat.log2_eq_iff (Nat.ne_of_gt h.pos)).2 ⟨h.low, h.high⟩

/-! ## Rounding -/

theorem shiftRight_zeros (m k : Nat) :
    ExtendedMantissa.mk (m <<< k) false false >>> k =
      ExtendedMantissa.mk m false false := by
  induction k generalizing m with
  | zero => rfl
  | succ k ih =>
      change (ExtendedMantissa.mk (m <<< (k + 1)) false false >>>
        k).shiftRightOne = _
      rw [Nat.add_comm, Nat.shiftLeft_add, ih]
      simp [ExtendedMantissa.shiftRightOne, Nat.shiftLeft_eq]

theorem shiftToTargetExponent_eq (h : Normal m e) (k : Nat) :
    shiftToTargetExponent Format.binary64 (m <<< k) (e - k) .exact =
      (ExtendedMantissa.mk m false false, e) := by
  have least := h.least
  have target : max (((m <<< k).log2 : Int) + 1 + (e - k) - 53) (-1074) =
      e := by
    rw [log2_shiftLeft (Nat.ne_of_gt h.pos), h.log2_eq]
    omega
  have amount : (e - (e - k)).toNat = k := by omega
  rw [shiftToTargetExponent, targetExponent_binary64, totalExponent, target,
    shiftToExponent, amount]
  exact Prod.ext (shiftRight_zeros m k) (Int.sub_add_cancel e k)

theorem roundWithAccuracy_eq (h : Normal m e) (sign : Sign) (k : Nat) :
    roundWithAccuracy Format.binary64 sign (m <<< k) (e - k) .exact =
      .finite sign m e h.pos := by
  have rounded : (ExtendedMantissa.mk m false false).roundedMantissa = m := rfl
  have again := h.shiftToTargetExponent_eq 0
  simp only [Nat.shiftLeft_zero, Int.natCast_zero, Int.sub_zero] at again
  rw [roundWithAccuracy, h.shiftToTargetExponent_eq k]
  dsimp only
  rw [rounded, again, dif_neg (Nat.ne_of_gt h.pos)]

/-! ## Packing -/

theorem pack_eq (h : Normal m e) :
    UnpackedFloat.pack Format.binary64 (.finite .positive m e h.pos) =
      packComponents Format.binary64 .positive
        (BitVec.ofNat 11 (e + 1023 + 52).toNat) (BitVec.ofNat 52 m) := by
  have most := h.most
  have finite : ¬2 ^ Format.binary64.exponentBits ≤
      (e + Format.binary64.exponentBias +
        Format.binary64.mantissaBitsWithoutImplicit).toNat + 1 := by
    change ¬2048 ≤ (e + 1023 + 52).toNat + 1
    omega
  have full : m.log2 + 1 = Format.binary64.mantissaBits := by
    rw [h.log2_eq]
    rfl
  simp only [UnpackedFloat.pack, if_neg finite, if_pos full]
  rfl

theorem toNat_pack (h : Normal m e) :
    (UnpackedFloat.pack Format.binary64 (.finite .positive m e h.pos)).toNat =
      (e + 1075).toNat * 2 ^ 52 + m % 2 ^ 52 := by
  have most := h.most
  have exponent : (e + 1023 + 52).toNat % 2 ^ 11 = (e + 1075).toNat := by omega
  have fraction : m % 2 ^ 52 < 2 ^ 52 := Nat.mod_lt m (Nat.two_pow_pos 52)
  rw [h.pack_eq]
  change (0#1 ++ BitVec.ofNat 11 (e + 1023 + 52).toNat ++
    BitVec.ofNat 52 m).toNat = _
  simp only [BitVec.toNat_append, BitVec.toNat_ofNat, exponent]
  rw [← Nat.shiftLeft_add_eq_or_of_lt fraction, Nat.shiftLeft_eq]
  simp

theorem unpackSign_positive (exponent : BitVec 11) (fraction : BitVec 52) :
    unpackSign (packComponents Format.binary64 .positive exponent fraction) =
      0#1 := by
  change (0#1 ++ exponent ++ fraction).extractLsb' 63 1 = 0#1
  rw [BitVec.extractLsb'_append_eq_of_le (by decide),
    BitVec.extractLsb'_append_eq_of_le (by decide)]
  rfl

theorem unpack_pack (h : Normal m e) :
    UnpackedFloat.unpack Format.binary64
      (UnpackedFloat.pack Format.binary64 (.finite .positive m e h.pos)) =
      .finite .positive m e h.pos := by
  have most := h.most
  have least := h.least
  have high := h.high
  have low := h.low
  have exponent : (BitVec.ofNat 11 (e + 1023 + 52).toNat).toNat =
      (e + 1075).toNat := by
    change (e + 1023 + 52).toNat % 2 ^ 11 = _
    omega
  have other {b : BitVec 11} (differs : (e + 1075).toNat ≠ b.toNat) :
      BitVec.ofNat 11 (e + 1023 + 52).toNat ≠ b := by
    intro same
    exact differs (exponent ▸ congrArg BitVec.toNat same)
  have finite : (e + 1075).toNat ≠ (-1#11).toNat := by
    change _ ≠ 2047
    omega
  have filled : (e + 1075).toNat ≠ (0#11).toNat := by
    change _ ≠ 0
    omega
  have mantissa : (1#1 ++ BitVec.ofNat 52 m).toNat = m := by
    have fraction : m % 2 ^ 52 < 2 ^ 52 := Nat.mod_lt m (Nat.two_pow_pos 52)
    simp only [BitVec.toNat_append, BitVec.toNat_ofNat]
    rw [← Nat.shiftLeft_add_eq_or_of_lt fraction]
    change 2 ^ 52 + m % 2 ^ 52 = m
    omega
  rw [h.pack_eq, UnpackedFloat.unpack]
  simp only [unpackMantissa_packComponents, unpackExponent_packComponents]
  rw [if_neg (other finite), if_neg (other filled), UnpackedFloat.finite.injEq]
  refine ⟨?_, mantissa, ?_⟩
  · rw [unpackSign_positive]
    rfl
  · rw [exponent]
    change ((e + 1075).toNat : Int) - (1023 + 52) = e
    omega

theorem ofFloat?_pack_eq (h : Normal m e) :
    Binary.ofFloat? ⟨.pack (.finite .positive m e h.pos)⟩ =
      some ⟨false, m, e⟩ := by
  have most := h.most
  have least := h.least
  have high := h.high
  have low := h.low
  have bits : (Float.toBits ⟨.pack (.finite .positive m e h.pos)⟩).toNat =
      (e + 1075).toNat * 2 ^ 52 + m % 2 ^ 52 :=
    h.toNat_pack
  have sign : ((e + 1075).toNat * 2 ^ 52 + m % 2 ^ 52) / 2 ^ 63 = 0 := by omega
  have biased : ((e + 1075).toNat * 2 ^ 52 + m % 2 ^ 52) / 2 ^ 52 % 2 ^ 11 =
      (e + 1075).toNat := by omega
  have fraction : ((e + 1075).toNat * 2 ^ 52 + m % 2 ^ 52) % 2 ^ 52 + 2 ^ 52 =
      m := by omega
  simp only [Binary.ofFloat?, bits, Nat.pow_eq, sign, biased, fraction]
  rw [if_neg (by omega), if_neg (by omega)]
  simp
  omega

end Normal

theorem roundDiv_mul (n : Nat) {d : Nat} (pos : 0 < d) :
    roundDiv (n * d) d = n := by
  simp [roundDiv, Nat.mul_div_cancel _ pos, pos]

theorem normal_count {n : Nat} (pos : n ≠ 0) (small : n < 2 ^ 53) :
    Normal (n <<< (52 - n.log2)) (n.log2 - 52) := by
  have bits : n.log2 < 53 := (Nat.log2_lt pos).2 small
  have shifted : n <<< (52 - n.log2) ≠ 0 := mt Nat.shiftLeft_eq_zero_iff.1 pos
  have full : (n <<< (52 - n.log2)).log2 = 52 := by
    rw [log2_shiftLeft pos]
    omega
  have bounds := (Nat.log2_eq_iff shifted).1 full
  exact ⟨bounds.1, bounds.2, by omega, by omega⟩

theorem toFloat_eq {n : Nat} (pos : n ≠ 0) (small : n < 2 ^ 53) :
    n.toUInt64.toFloat =
      ⟨.pack (.finite .positive (n <<< (52 - n.log2)) (n.log2 - 52)
        (normal_count pos small).pos)⟩ := by
  have normal := normal_count pos small
  have bits : n.log2 < 53 := (Nat.log2_lt pos).2 small
  have word : n.toUInt64.toNat = n := by
    simp
    omega
  have positive : compare (n : Int) 0 = .gt := Int.compare_eq_gt.2 (by omega)
  have target : max ((n.log2 : Int) + 1 + 0 - 53) (-1074) = n.log2 - 52 := by
    omega
  have amount : (0 - ((n.log2 : Int) - 52)).toNat = 52 - n.log2 := by omega
  have exponent : (0 : Int) - ((52 - n.log2 : Nat) : Int) = n.log2 - 52 := by
    omega
  have exact := normal.roundWithAccuracy_eq .positive 0
  simp only [Nat.shiftLeft_zero, Int.natCast_zero, Int.sub_zero] at exact
  simp only [UInt64.toFloat, Float.Model.ofUInt64, UnpackedFloat.ofUInt64,
    UnpackedFloat.ofNat, UnpackedFloat.ofInt, UnpackedFloat.normalize, word,
    positive, Int.toNat_natCast, UnpackedFloat.round, targetExponent_binary64,
    totalExponent, target, decreaseExponent, amount, exponent, exact]

theorem ofNat_eq {n : Nat} (pos : n ≠ 0) (small : n < 2 ^ 53) :
    Float.ofNat n =
      ⟨.pack (.finite .positive (n <<< (52 - n.log2)) (n.log2 - 52)
        (normal_count pos small).pos)⟩ := by
  have normal := normal_count pos small
  have one : (Float.ofBits 0x3FF0000000000000).toModel.unpack =
      .finite .positive (2 ^ 52) (-52) (by decide) := rfl
  have short : Float.ofNat n = n.toUInt64.toFloat *
      Float.ofBits 0x3FF0000000000000 := dif_pos ⟨small, by decide⟩
  have scaled : roundWithAccuracy Format.binary64 .positive
      (n <<< (52 - n.log2) * 2 ^ 52) (n.log2 - 52 + -52) .exact =
      .finite .positive (n <<< (52 - n.log2)) (n.log2 - 52) normal.pos := by
    rw [← Nat.shiftLeft_eq]
    exact normal.roundWithAccuracy_eq .positive 52
  rw [short, toFloat_eq pos small]
  change (⟨.pack (UnpackedFloat.mul Format.binary64
    (UnpackedFloat.unpack Format.binary64
      (UnpackedFloat.pack Format.binary64 _))
    (Float.ofBits 0x3FF0000000000000).toModel.unpack)⟩ : Float) = _
  rw [normal.unpack_pack, one]
  exact congrArg (fun f => (⟨.pack f⟩ : Float)) scaled

/-- The nearest integer to a count as a double is the count. -/
theorem Number.round?_ofNat {n : Nat} (small : n ≤ 2 ^ 53) :
    (Number.ofNat n).round? = some (n : Int) := by
  obtain rfl | small := Nat.eq_or_lt_of_le small
  · decide +kernel
  obtain rfl | pos := Nat.eq_zero_or_pos n
  · decide +kernel
  have positive : n ≠ 0 := Nat.ne_of_gt pos
  have bits : n.log2 < 53 := (Nat.log2_lt positive).2 small
  have ratio : Binary.ratio ⟨false, n <<< (52 - n.log2), n.log2 - 52⟩ =
      (n * 2 ^ (52 - n.log2), 2 ^ (52 - n.log2)) := by
    by_cases full : n.log2 = 52
    · simp [Binary.ratio, full]
    · have below : ¬(0 : Int) ≤ (n.log2 : Int) - 52 := by omega
      have amount : (-((n.log2 : Int) - 52)).toNat = 52 - n.log2 := by omega
      simp only [Binary.ratio, if_neg below, amount, Nat.shiftLeft_eq,
        Nat.pow_eq]
  rw [ofNat, round?, ofNat_eq positive small,
    (normal_count positive small).ofFloat?_pack_eq]
  simp [ratio, roundDiv_mul n (Nat.two_pow_pos (52 - n.log2))]

end Awk
