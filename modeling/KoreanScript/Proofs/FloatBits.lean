import Mathlib
import KoreanScript.Number

/-!
Doubles and their bits. A defined double has the bits that it was made of; and one
with the bits of a positive finite double is neither equal to zero nor undefined.
-/
namespace KoreanScript.Number
open Float.Model.UnpackedFloat

/-- The layout of doubles: a sign bit, 11 bits of exponent and 52 of mantissa. -/
abbrev layout : Float.Model.Format := .binary64

/-! ### Fields -/

variable (b : BitVec layout.numBits)

theorem toNat_sign : (unpackSign b).toNat = b.toNat / 2 ^ 63 := by
  have bounded : b.toNat < 2 ^ 64 := b.isLt
  have field : (unpackSign b).toNat = b.toNat / 2 ^ 63 % 2 := by
    simp [unpackSign, Nat.shiftRight_eq_div_pow]
  omega
theorem toNat_exponent : (unpackExponent b).toNat = b.toNat / 2 ^ 52 % 2 ^ 11 := by
  simp [unpackExponent, Nat.shiftRight_eq_div_pow]
theorem toNat_mantissa : (unpackMantissa b).toNat = b.toNat % 2 ^ 52 := by
  simp [unpackMantissa]
theorem toBitVec_ofBitVec : ∀ s : BitVec 1, (Sign.ofBitVec s).toBitVec = s := by decide
theorem toNat_fields (s : Sign) (e : BitVec 11) (m : BitVec 52) :
    (packComponents layout s e m).toNat = s.toBitVec.toNat * 2 ^ 63 + e.toNat * 2 ^ 52 + m.toNat := by
  have joined : (packComponents layout s e m).toNat =
      (s.toBitVec.toNat <<< 11 ||| e.toNat) <<< 52 ||| m.toNat := by
    simp only [packComponents, BitVec.toNat_append]
  rw [joined, ← Nat.shiftLeft_add_eq_or_of_lt m.isLt, ← Nat.shiftLeft_add_eq_or_of_lt e.isLt]
  simp only [Nat.shiftLeft_eq]
  omega
/-- The bit before the mantissa of a normal double, which is not written. -/
theorem toNat_implicit : (1#1 ++ unpackMantissa b).toNat = 2 ^ 52 + (unpackMantissa b).toNat := by
  rw [BitVec.toNat_append, ← Nat.shiftLeft_add_eq_or_of_lt (unpackMantissa b).isLt]
  rfl
/-- Bits are made up of their three fields. -/
theorem reassembled :
    packComponents layout (Sign.ofBitVec (unpackSign b)) (unpackExponent b) (unpackMantissa b) = b := by
  apply BitVec.eq_of_toNat_eq
  rw [toNat_fields, toBitVec_ofBitVec, toNat_sign, toNat_exponent, toNat_mantissa]
  omega

/-! ### Packing -/

variable {b}

theorem pack_subnormal (zero : unpackExponent b = 0#11) {m : Nat} {e : Int} (pos : 0 < m)
    (count : m = (unpackMantissa b).toNat) (unit : e = -1074) :
    pack layout (.finite (Sign.ofBitVec (unpackSign b)) m e pos) = b := by
  have bounded : (unpackMantissa b).toNat < 2 ^ 52 := (unpackMantissa b).isLt
  have bias : (e + (layout.exponentBias : Nat) + (layout.mantissaBitsWithoutImplicit : Nat)).toNat = 1 := by
    subst unit
    decide
  have short : ¬ m.log2 + 1 = layout.mantissaBits := by
    have below := (Nat.log2_lt (Nat.ne_of_gt pos)).mpr (count ▸ bounded)
    have full : layout.mantissaBits = 53 := by decide
    omega
  have whole := reassembled b
  rw [zero] at whole
  unfold pack
  simp only [bias]
  rw [if_neg (by decide), if_neg short, count, BitVec.ofNat_toNat, BitVec.setWidth_eq]
  exact whole
theorem pack_normal (less : unpackExponent b ≠ -1#11) {m : Nat} {e : Int} (pos : 0 < m)
    (count : m = 2 ^ 52 + (unpackMantissa b).toNat) (unit : e = (unpackExponent b).toNat - 1075) :
    pack layout (.finite (Sign.ofBitVec (unpackSign b)) m e pos) = b := by
  have bounded : (unpackMantissa b).toNat < 2 ^ 52 := (unpackMantissa b).isLt
  have bounded' : (unpackExponent b).toNat < 2 ^ 11 := (unpackExponent b).isLt
  have other : (unpackExponent b).toNat ≠ 2047 := fun same => less (BitVec.eq_of_toNat_eq same)
  have bias : (e + (layout.exponentBias : Nat) + (layout.mantissaBitsWithoutImplicit : Nat)).toNat =
      (unpackExponent b).toNat := by
    have offset : ((layout.exponentBias : Nat) : Int) + (layout.mantissaBitsWithoutImplicit : Nat) = 1075 := by
      decide
    omega
  have full : m.log2 + 1 = layout.mantissaBits := by
    have above := (Nat.le_log2 (Nat.ne_of_gt pos)).mpr (by omega : 2 ^ 52 ≤ m)
    have below := (Nat.log2_lt (Nat.ne_of_gt pos)).mpr (by omega : m < 2 ^ 53)
    have width : layout.mantissaBits = 53 := by decide
    omega
  have rest : BitVec.ofNat layout.mantissaBitsWithoutImplicit m = unpackMantissa b := by
    apply BitVec.eq_of_toNat_eq
    rw [BitVec.toNat_ofNat]
    show m % 2 ^ 52 = _
    omega
  unfold pack
  simp only [bias]
  rw [if_neg (by show ¬ 2 ^ 11 ≤ _; omega), if_pos full, rest, BitVec.ofNat_toNat, BitVec.setWidth_eq]
  exact reassembled b
/-- Unless they stand for an undefined number, bits are packed again as they were. -/
theorem pack_unpack (defined : unpackExponent b = -1#11 → unpackMantissa b = 0#52) :
    pack layout (unpack layout b) = b := by
  have whole := reassembled b
  unfold unpack
  simp only
  split
  · next full =>
    rw [full, defined full] at whole
    rw [if_pos (defined full)]
    exact whole
  · next less =>
    split
    · next zero =>
      split
      · next none =>
        rw [zero, none] at whole
        exact whole
      · refine pack_subnormal zero _ rfl ?_
        rw [zero]
        decide
    · refine pack_normal less _ (toNat_implicit b) ?_
      have offset : ((layout.exponentBias : Nat) : Int) + (layout.mantissaBitsWithoutImplicit : Nat) = 1075 := by
        decide
      rw [offset]

/-! ### Finite doubles without a sign -/

theorem exponent_of_lt (finite : b.toNat < Decimal.infinityBits) : unpackExponent b ≠ -1#11 := by
  intro full
  have field : (unpackExponent b).toNat = 2047 := by rw [full]; rfl
  have top : Decimal.infinityBits = 2047 * 2 ^ 52 := rfl
  rw [toNat_exponent] at field
  omega
theorem sign_of_lt (finite : b.toNat < Decimal.infinityBits) : unpackSign b = 0#1 := by
  apply BitVec.eq_of_toNat_eq
  have top : Decimal.infinityBits = 2047 * 2 ^ 52 := rfl
  rw [toNat_sign]
  show _ = 0
  omega
theorem unpack_zero (zero : b.toNat = 0) : unpack layout b = .zero .positive := by
  have same : b = 0#64 := BitVec.eq_of_toNat_eq zero
  rw [same]
  rfl
theorem unpack_pos (pos : 0 < b.toNat) (finite : b.toNat < Decimal.infinityBits) :
    ∃ m e some, unpack layout b = .finite .positive m e some := by
  have sign : Sign.ofBitVec (unpackSign b) = .positive := by rw [sign_of_lt finite]; rfl
  unfold unpack
  simp only
  rw [if_neg (exponent_of_lt finite), sign]
  split
  · next zero =>
    split
    · next none =>
      have whole := toNat_fields .positive (unpackExponent b) (unpackMantissa b)
      rw [← sign, reassembled, zero, none, sign] at whole
      exact absurd whole (Nat.ne_of_gt pos)
    · next some => exact ⟨_, _, BitVec.toNat_pos_of_ne_zero some, rfl⟩
  · have implicit : 0 < (1#1 ++ unpackMantissa b).toNat := by
      rw [toNat_implicit]
      omega
    exact ⟨_, _, implicit, rfl⟩

variable {bits : Nat}

/-- The double of the given bits. -/
def ofWord (bits : Nat) : Float := Float.ofBits (UInt64.ofNat bits)

theorem toNat_word (finite : bits < Decimal.infinityBits) : (UInt64.ofNat bits).toBitVec.toNat = bits := by
  have top : Decimal.infinityBits = 2047 * 2 ^ 52 := rfl
  have small : bits < 2 ^ 64 := by omega
  exact Nat.mod_eq_of_lt small
/-- A finite double has the bits that it was made of. -/
theorem toBits_ofWord (finite : bits < Decimal.infinityBits) : (ofWord bits).toBits.toNat = bits := by
  have word := toNat_word finite
  have same : pack layout (unpack layout (UInt64.ofNat bits).toBitVec) = (UInt64.ofNat bits).toBitVec :=
    pack_unpack fun full => absurd full (exponent_of_lt (word.symm ▸ finite))
  show (pack layout (unpack layout (UInt64.ofNat bits).toBitVec)).toNat = bits
  rw [same, word]
theorem unpack_ofWord (finite : bits < Decimal.infinityBits) :
    (ofWord bits).toModel.unpack = unpack layout (UInt64.ofNat bits).toBitVec := by
  have same : (ofWord bits).toBits.toBitVec = (UInt64.ofNat bits).toBitVec :=
    BitVec.eq_of_toNat_eq ((toBits_ofWord finite).trans (toNat_word finite).symm)
  show unpack layout (ofWord bits).toBits.toBitVec = _
  rw [same]
theorem isNaN_ofWord (finite : bits < Decimal.infinityBits) : (ofWord bits).isNaN = false := by
  show (ofWord bits).toModel.unpack.isNaN = false
  have word := toNat_word finite
  rw [unpack_ofWord finite]
  by_cases zero : bits = 0
  · rw [unpack_zero (word.trans zero)]
    rfl
  · obtain ⟨m, e, some, unpacked⟩ := unpack_pos (by omega) (word.symm ▸ finite)
    rw [unpacked]
    rfl
/-- The bits of a finite double without a sign tell whether it is zero. -/
theorem beq_zero_ofWord (finite : bits < Decimal.infinityBits) : (ofWord bits == 0.0) = (bits == 0) := by
  show (ofWord bits).toModel.unpack.beq (0.0 : Float).toModel.unpack = _
  have word := toNat_word finite
  have none : (0.0 : Float).toModel.unpack = .zero .positive := by rfl
  rw [unpack_ofWord finite, none]
  by_cases zero : bits = 0
  · rw [unpack_zero (word.trans zero), zero]
    rfl
  · obtain ⟨m, e, some, unpacked⟩ := unpack_pos (by omega) (word.symm ▸ finite)
    rw [unpacked, beq_eq_false_iff_ne.mpr zero]
    rfl
theorem isNegative_ofWord (finite : bits < Decimal.infinityBits) : isNegative (ofWord bits) = false := by
  have top : Decimal.infinityBits = 2047 * 2 ^ 52 := rfl
  have sign : signBit = 2 ^ 63 := rfl
  rw [isNegative, toBits_ofWord finite, decide_eq_false_iff_not, sign]
  omega
theorem magnitudeBits_ofWord (finite : bits < Decimal.infinityBits) : magnitudeBits (ofWord bits) = bits := by
  have top : Decimal.infinityBits = 2047 * 2 ^ 52 := rfl
  have sign : signBit = 2 ^ 63 := rfl
  rw [magnitudeBits, toBits_ofWord finite, sign]
  omega
/-- The bits of infinity are not those of a finite double. -/
theorem isFinite_infinity : (ofWord Decimal.infinityBits).isFinite = false := by decide +kernel

end KoreanScript.Number
