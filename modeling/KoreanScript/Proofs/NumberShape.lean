import Mathlib
import KoreanScript.Proofs.FiniteNumbers

/-!
What the bits of a double say of its parts: the bits without the sign tell zero, the finite
numbers, infinity and what is undefined apart, and those of a finite number are its mantissa
and its exponent.
-/
namespace KoreanScript.Number
open Float.Model (UnpackedFloat)
open Float.Model.UnpackedFloat
open Decimal (infinityBits exponentBit)

/-- The sign of a double. -/
def sign (x : Float) : Sign := if isNegative x then .negative else .positive

theorem magnitudeBits_eq (x : Float) : magnitudeBits x =
    (unpackExponent (pattern x)).toNat * 2 ^ 52 + (unpackMantissa (pattern x)).toNat := by
  have bounded : (pattern x).toNat < 2 ^ 64 := (pattern x).isLt
  rw [toNat_exponent, toNat_mantissa]
  show (pattern x).toNat % 2 ^ 63 = _
  omega
theorem ofBitVec_unpackSign (x : Float) : Sign.ofBitVec (unpackSign (pattern x)) = sign x := by
  have bounded : (pattern x).toNat < 2 ^ 64 := (pattern x).isLt
  have field := toNat_sign (pattern x)
  rw [sign]
  by_cases negative : isNegative x
  · have set : 2 ^ 63 ≤ (pattern x).toNat := of_decide_eq_true negative
    have one : unpackSign (pattern x) = 1#1 := BitVec.eq_of_toNat_eq (field.trans (by show _ = 1; omega))
    rw [one, if_pos negative]
    rfl
  · have clear : ¬ 2 ^ 63 ≤ (pattern x).toNat := fun set => negative (decide_eq_true set)
    have none : unpackSign (pattern x) = 0#1 := BitVec.eq_of_toNat_eq (field.trans (by show _ = 0; omega))
    rw [none, if_neg negative]
    rfl

/-- The parts that a double has by its bits. -/
inductive Shape (x : Float) : UnpackedFloat → Prop
  | zero : magnitudeBits x = 0 → Shape x (.zero (sign x))
  | finite {m : Nat} {e : Int} (pos : 0 < m) :
    0 < magnitudeBits x → magnitudeBits x < infinityBits →
      m = Decimal.mantissa (magnitudeBits x) → e = Decimal.exponent (magnitudeBits x) →
        Shape x (.finite (sign x) m e pos)
  | infinity : magnitudeBits x = infinityBits → Shape x (.infinity (sign x))
  | notANumber : infinityBits < magnitudeBits x → Shape x .notANumber

theorem shape (x : Float) : Shape x (parts x) := by
  have bits := magnitudeBits_eq x
  have top : infinityBits = 2047 * 2 ^ 52 := rfl
  have unit : exponentBit = 2 ^ 52 := rfl
  have low : (unpackMantissa (pattern x)).toNat < 2 ^ 52 := (unpackMantissa (pattern x)).isLt
  have high : (unpackExponent (pattern x)).toNat < 2 ^ 11 := (unpackExponent (pattern x)).isLt
  change Shape x (unpack layout (pattern x))
  unfold unpack
  simp only
  rw [ofBitVec_unpackSign]
  by_cases full : unpackExponent (pattern x) = -1#11
  · have field : (unpackExponent (pattern x)).toNat = 2047 := by rw [full]; rfl
    rw [if_pos full]
    by_cases none : unpackMantissa (pattern x) = 0#52
    · have field' : (unpackMantissa (pattern x)).toNat = 0 := by rw [none]; rfl
      rw [if_pos none]
      exact .infinity (by omega)
    · have pos := BitVec.toNat_pos_of_ne_zero none
      rw [if_neg none]
      exact .notANumber (by omega)
  have less : (unpackExponent (pattern x)).toNat ≠ 2047 := fun same => full (BitVec.eq_of_toNat_eq same)
  rw [if_neg full]
  by_cases least : unpackExponent (pattern x) = 0#11
  · have field : (unpackExponent (pattern x)).toNat = 0 := by rw [least]; rfl
    rw [if_pos least]
    by_cases none : unpackMantissa (pattern x) = 0#52
    · have field' : (unpackMantissa (pattern x)).toNat = 0 := by rw [none]; rfl
      rw [dif_pos none]
      exact .zero (by omega)
    · have pos := BitVec.toNat_pos_of_ne_zero none
      rw [dif_neg none]
      refine .finite _ (by omega) (by omega) ?_ ?_
      · rw [Decimal.mantissa, if_pos (by omega)]
        omega
      · rw [Decimal.exponent, if_pos (by omega), field]
        decide
  · have some : (unpackExponent (pattern x)).toNat ≠ 0 := fun same => least (BitVec.eq_of_toNat_eq same)
    have offset : ((layout.exponentBias : Nat) : Int) + (layout.mantissaBitsWithoutImplicit : Nat) = 1075 := by decide
    rw [if_neg least]
    refine .finite _ (by omega) (by omega) ?_ ?_
    · rw [toNat_implicit, Decimal.mantissa, if_neg (by omega), unit]
      omega
    · rw [Decimal.exponent, if_neg (by omega), offset, unit]
      omega

end KoreanScript.Number
