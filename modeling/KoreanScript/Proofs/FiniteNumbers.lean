import Mathlib
import KoreanScript.Proofs.Equality
import KoreanScript.Proofs.ShortestReads

/-!
Finite numbers are what their bits without the sign make, or the opposite of it. So
the text of a finite number is that of the double nearest to some decimal, with a
minus sign in front of it if the number is negative.
-/
namespace KoreanScript.Number
open Float.Model.UnpackedFloat
open Decimal (infinityBits nearest)

variable {x : Float}

/-! ### Bits and signs -/

theorem isNaN_of_isFinite (finite : x.isFinite) : x.isNaN = false := by
  change (parts x).isFinite = true at finite
  change (parts x).isNaN = false
  cases same : parts x with
  | notANumber =>
    rw [same] at finite
    cases finite
  | infinity _ | zero _ | finite _ _ _ _ => rfl
/-- The bits of a double. -/
abbrev pattern (x : Float) : BitVec layout.numBits := x.toBits.toBitVec

theorem exponent_of_isFinite (finite : x.isFinite) : unpackExponent (pattern x) ≠ -1#11 := by
  intro full
  change (unpack layout (pattern x)).isFinite = true at finite
  unfold unpack at finite
  simp only at finite
  rw [if_pos full] at finite
  split at finite <;> cases finite
theorem magnitudeBits_lt (finite : x.isFinite) : magnitudeBits x < infinityBits := by
  have less : (unpackExponent (pattern x)).toNat ≠ 2047 :=
    fun full => exponent_of_isFinite finite (BitVec.eq_of_toNat_eq full)
  have bounded : (pattern x).toNat < 2 ^ 64 := (pattern x).isLt
  have top : infinityBits = 2047 * 2 ^ 52 := rfl
  rw [toNat_exponent] at less
  show (pattern x).toNat % 2 ^ 63 < _
  omega
theorem isFinite_ofWord {bits : Nat} (finite : bits < infinityBits) : (ofWord bits).isFinite := by
  show (ofWord bits).toModel.unpack.isFinite = true
  have word := toNat_word finite
  rw [unpack_ofWord finite]
  by_cases zero : bits = 0
  · rw [unpack_zero (word.trans zero)]
    rfl
  · obtain ⟨m, e, some, unpacked⟩ := unpack_pos (by omega) (word.symm ▸ finite)
    rw [unpacked]
    rfl
/-- Without a sign, a number is what its bits make. -/
theorem eq_ofWord (positive : isNegative x = false) : x = ofWord (magnitudeBits x) := by
  have bits : magnitudeBits x = x.toBits.toNat := by
    refine Nat.mod_eq_of_lt ?_
    simpa [isNegative] using positive
  rw [ofWord, bits, UInt64.ofNat_toNat, Float.ofBits_toBits]
/-- Bits that differ in their sign alone stand for opposite numbers. -/
theorem unpack_eq_neg {b c : BitVec layout.numBits} (negative : unpackSign b = 1#1) (positive : unpackSign c = 0#1)
    (exponents : unpackExponent b = unpackExponent c) (mantissas : unpackMantissa b = unpackMantissa c) :
    unpack layout b = (unpack layout c).neg := by
  have minus : Sign.ofBitVec (1#1) = -Sign.ofBitVec (0#1) := rfl
  unfold unpack
  simp only [negative, positive, exponents, mantissas, minus]
  split
  · split <;> rfl
  split
  · split <;> rfl
  · rfl
/-- With a sign, a finite number is the opposite of what its other bits make. -/
theorem eq_neg_ofWord (finite : x.isFinite) (negative : isNegative x) : x = -ofWord (magnitudeBits x) := by
  have less := magnitudeBits_lt finite
  have word := toNat_word less
  have sign : 2 ^ 63 ≤ (pattern x).toNat := of_decide_eq_true negative
  have bounded : (pattern x).toNat < 2 ^ 64 := (pattern x).isLt
  have bits : (UInt64.ofNat (magnitudeBits x)).toBitVec.toNat = (pattern x).toNat % 2 ^ 63 := word
  have opposite : unpack layout (pattern x) = (unpack layout (UInt64.ofNat (magnitudeBits x)).toBitVec).neg := by
    refine unpack_eq_neg ?_ (sign_of_lt (word.symm ▸ less)) ?_ ?_
    · apply BitVec.eq_of_toNat_eq
      rw [toNat_sign]
      show _ = 1
      omega
    · apply BitVec.eq_of_toNat_eq
      rw [toNat_exponent, toNat_exponent, bits]
      omega
    · apply BitVec.eq_of_toNat_eq
      rw [toNat_mantissa, toNat_mantissa, bits]
      omega
  have again : pack layout (unpack layout (pattern x)) = pattern x := pack_unpack_of_valid x.toModel.valid
  rw [opposite, ← unpack_ofWord less] at again
  have same : (-ofWord (magnitudeBits x)).toBits = x.toBits := UInt64.toBitVec_inj.mp again
  have whole := congrArg Float.ofBits same
  rwa [Float.ofBits_toBits, Float.ofBits_toBits, eq_comm] at whole

/-! ### Texts -/

theorem render_ofWord {bits : Nat} (pos : 0 < bits) (finite : bits < infinityBits) :
    render (ofWord bits) = magnitudeText bits := by
  rw [Decimal.render_pos pos finite, magnitudeText, if_neg (Nat.ne_of_gt pos), if_neg (Nat.ne_of_lt finite)]
/-- The only finite numbers without bits other than the sign are the zeros. -/
theorem magnitudeBits_pos (finite : x.isFinite) (some : ¬ x == 0.0) : 0 < magnitudeBits x := by
  refine Nat.pos_of_ne_zero fun none => some ?_
  cases sign : isNegative x with
  | true =>
    rw [eq_neg_ofWord finite sign, none]
    decide +kernel
  | false =>
    rw [eq_ofWord sign, none]
    decide +kernel
/-- The text of a finite number is that of the double nearest to a decimal, which is equal to the
    number; or it has a minus sign in front of it, and the opposite is equal to the number. -/
theorem render_of_isFinite (finite : x.isFinite) :
    ∃ d e, (nearest d e).isFinite ∧
      (render x = render (nearest d e) ∧ nearest d e == x ∨
        render x = "-" ++ render (nearest d e) ∧ -nearest d e == x) := by
  have less := magnitudeBits_lt finite
  have defined := isNaN_of_isFinite finite
  by_cases zero : x == 0.0
  · refine ⟨0, 0, isFinite_ofWord (by decide), .inl ⟨?_, ?_⟩⟩
    · rw [render, if_pos zero, Decimal.render_zero]
    · have none : nearest 0 0 == 0.0 := by decide +kernel
      exact beq_trans none (by rwa [beq_comm])
  have pos := magnitudeBits_pos finite zero
  have reads : nearest (Decimal.shortest (magnitudeBits x)).1 (Decimal.shortest (magnitudeBits x)).2 =
      ofWord (magnitudeBits x) := by
    rw [nearest, Decimal.nearestBits_shortest pos less]
    rfl
  refine ⟨_, _, reads ▸ isFinite_ofWord less, ?_⟩
  have shown : render x = text x := if_neg zero
  rw [reads, render_ofWord pos less, shown, text, defined]
  cases sign : isNegative x with
  | true =>
    refine .inr ⟨rfl, ?_⟩
    rw [← eq_neg_ofWord finite sign]
    exact beq_self defined
  | false =>
    refine .inl ⟨rfl, ?_⟩
    rw [← eq_ofWord sign]
    exact beq_self defined

end KoreanScript.Number
