import Mathlib
import KoreanScript.Proofs.NumberShape

/-!
The natural numbers among the doubles. A finite double stands for a rational number, with
a sign, a mantissa and an exponent of two; the natural number that a double is read as is
the one that it stands for, and there is none for fractions, negative numbers, infinities
and the undefined number. Both zeros stand for zero.
-/
namespace KoreanScript.Number
open Float.Model (UnpackedFloat)

/-- The rational number that the parts of a double stand for. -/
def rational? : UnpackedFloat → Option ℚ
  | .zero _ => some 0
  | .finite .positive m e _ => some (m * 2 ^ e)
  | .finite .negative m e _ => some (-(m * 2 ^ e))
  | .infinity _ | .notANumber => none
/-- The rational number that a double stands for, if it is finite. -/
def value? (x : Float) : Option ℚ := rational? (parts x)

/-- `m · 2^q` is whole exactly if it is a natural number. -/
theorem whole?_eq_some_iff (m : Nat) (q : Int) (n : Nat) : whole? m q = some n ↔ (m * 2 ^ q : ℚ) = n := by
  cases q with
  | ofNat k =>
    simp only [whole?, Nat.pow_eq, Option.some.injEq, Int.ofNat_eq_natCast, zpow_natCast]
    exact_mod_cast Iff.rfl
  | negSucc k =>
    have pos : 0 < 2 ^ (k + 1) := Nat.two_pow_pos _
    have scaled : (m * 2 ^ Int.negSucc k : ℚ) = n ↔ m = n * 2 ^ (k + 1) := by
      rw [zpow_negSucc, ← div_eq_mul_inv, div_eq_iff (by positivity)]
      exact_mod_cast Iff.rfl
    rw [scaled]
    simp only [whole?, Nat.pow_eq]
    by_cases even : m % 2 ^ (k + 1) = 0
    · rw [if_pos even, Option.some.injEq]
      exact Nat.div_eq_iff_eq_mul_left pos (Nat.dvd_of_mod_eq_zero even)
    · rw [if_neg even]
      refine iff_of_false (by simp) fun same => even ?_
      rw [same, Nat.mul_mod_left]
/-- A double is read as the natural number that it stands for. -/
theorem natural?_eq_some_iff (x : Float) (n : Nat) : natural? x = some n ↔ value? x = some (n : ℚ) := by
  have top : 0 < Decimal.infinityBits := by decide
  have bits := shape x
  rw [value?, natural?]
  generalize parts x = u at bits
  cases bits with
  | zero none =>
    simp only [if_pos none, rational?, Option.some.injEq]
    exact_mod_cast Iff.rfl
  | infinity large | notANumber large =>
    have some : magnitudeBits x ≠ 0 := by omega
    have plain : Decimal.infinityBits ≤ magnitudeBits x ∨ isNegative x := .inl (by omega)
    simp [if_neg some, if_pos plain, rational?]
  | @finite m e pos some less mantissa exponent =>
    simp only [if_neg (Nat.ne_of_gt some), ← mantissa, ← exponent, sign]
    by_cases negative : isNegative x
    · have below : (-(m * 2 ^ e) : ℚ) < 0 := by
        rw [neg_lt_zero]
        positivity
      simp only [if_pos negative, if_pos (Or.inr negative), rational?, Option.some.injEq]
      refine iff_of_false (by simp) fun same => ?_
      exact absurd (same ▸ below) (not_lt.mpr (Nat.cast_nonneg n))
    · have plain : ¬ (Decimal.infinityBits ≤ magnitudeBits x ∨ isNegative x) :=
        not_or.mpr ⟨Nat.not_le.mpr less, negative⟩
      simp only [if_neg negative, if_neg plain, rational?, Option.some.injEq]
      exact whole?_eq_some_iff m e n
/-- Both zeros stand for zero. -/
theorem value?_of_beq_zero {x : Float} (zero : x == 0.0) : value? x = some 0 := by
  have none : parts (0.0 : Float) = .zero .positive := by rfl
  have equal := beq_iff.mp zero
  rw [none] at equal
  rw [value?]
  generalize parts x = u at equal
  cases equal <;> rfl

end KoreanScript.Number
