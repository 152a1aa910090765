import Mathlib
import KoreanScript.Operation
import KoreanScript.Proofs.WholeNumbers

/-!
The order of numbers. The bits of a double without its sign, with the sign before them, make
an integer; numbers that are defined compare as these integers do, and so finite ones as the
rational numbers that they stand for. The undefined number compares with none.
-/
namespace KoreanScript.Number
open Float.Model (UnpackedFloat)

variable {x y z : Float}

/-- The integer that the bits of a double make. -/
def rank (x : Float) : Int := if isNegative x then -(magnitudeBits x : Int) else magnitudeBits x

/-! ### Magnitudes -/

theorem exponent_lt_or {b c : Nat} (less : b < c) : Decimal.exponent b < Decimal.exponent c ∨
    Decimal.exponent b = Decimal.exponent c ∧ Decimal.mantissa b < Decimal.mantissa c := by
  have unit : Decimal.exponentBit = 2 ^ 52 := rfl
  simp only [Decimal.exponent, Decimal.mantissa, unit]
  by_cases low : b < 2 ^ 52
  · by_cases low' : c < 2 ^ 52
    · simp only [if_pos low, if_pos low']
      exact .inr ⟨trivial, less⟩
    · simp only [if_pos low, if_neg low']
      omega
  · have high : ¬ c < 2 ^ 52 := by omega
    simp only [if_neg low, if_neg high]
    omega
/-- Exponents before mantissas, the parts of magnitudes are in the order of their bits. -/
theorem compare_magnitudes (b c : Nat) :
    (compare (Decimal.exponent b) (Decimal.exponent c)).then (compare (Decimal.mantissa b) (Decimal.mantissa c)) =
      compare b c := by
  rcases lt_trichotomy b c with less | rfl | more
  · rw [compare_lt_iff_lt.mpr less]
    rcases exponent_lt_or less with lower | ⟨same, lower⟩
    · rw [compare_lt_iff_lt.mpr lower]
      rfl
    · rw [compare_eq_iff_eq.mpr same, compare_lt_iff_lt.mpr lower]
      rfl
  · simp only [Std.ReflCmp.compare_self]
    rfl
  · rw [compare_gt_iff_gt.mpr more]
    rcases exponent_lt_or more with lower | ⟨same, lower⟩
    · rw [compare_gt_iff_gt.mpr lower]
      rfl
    · rw [compare_eq_iff_eq.mpr same.symm, compare_gt_iff_gt.mpr lower]
      rfl

theorem compare_natCast (b c : Nat) : compare (b : Int) c = compare b c := by
  rw [← cmp_eq_compare, ← cmp_eq_compare]
  exact Nat.strictMono_cast.cmp_map_eq b c
theorem compare_neg_natCast (b c : Nat) : compare (-(b : Int)) (-c) = (compare b c).swap := by
  have opposite : StrictAnti fun n : Nat => -(n : Int) := fun _ _ less => Int.neg_lt_neg (Int.ofNat_lt.mpr less)
  rw [← cmp_eq_compare, ← cmp_eq_compare, cmp_swap]
  exact opposite.cmp_map_eq b c

/-! ### Comparing -/

/-- The parts of a number and the integer that its bits make. -/
inductive Ranked : UnpackedFloat → Int → Prop
  | zero (s : UnpackedFloat.Sign) : Ranked (.zero s) 0
  | above {b : Nat} (pos : 0 < Decimal.mantissa b) : 0 < b → b < Decimal.infinityBits →
    Ranked (.finite .positive (Decimal.mantissa b) (Decimal.exponent b) pos) b
  | below {b : Nat} (pos : 0 < Decimal.mantissa b) : 0 < b → b < Decimal.infinityBits →
    Ranked (.finite .negative (Decimal.mantissa b) (Decimal.exponent b) pos) (-b)
  | top : Ranked (.infinity .positive) Decimal.infinityBits
  | bottom : Ranked (.infinity .negative) (-Decimal.infinityBits)

theorem ranked (defined : x.isNaN = false) : Ranked (parts x) (rank x) := by
  have bits := shape x
  change (parts x).isNaN = false at defined
  generalize parts x = u at bits defined
  rw [rank]
  cases bits with
  | notANumber _ => cases defined
  | zero none =>
    have origin : (if isNegative x then -(magnitudeBits x : Int) else magnitudeBits x) = 0 := by
      rw [none]
      exact ite_self 0
    rw [origin]
    exact .zero _
  | finite pos some finite mantissa exponent =>
    subst mantissa exponent
    rw [sign]
    by_cases negative : isNegative x
    · simp only [if_pos negative]
      exact .below pos some finite
    · simp only [if_neg negative]
      exact .above pos some finite
  | infinity full =>
    rw [sign, full]
    by_cases negative : isNegative x
    · simp only [if_pos negative]
      exact .bottom
    · simp only [if_neg negative]
      exact .top
/-- Parts compare as their integers do; where both numbers are finite and have one sign, their
    magnitudes decide, and else the signs do. -/
theorem Ranked.compare_eq {u v : UnpackedFloat} {a b : Int} (ranked : Ranked u a) (ranked' : Ranked v b) :
    u.compare v = some (compare a b) := by
  have less {a b : Int} (h : a < b) : some Ordering.lt = some (compare a b) := by rw [compare_lt_iff_lt.mpr h]
  have equal {a b : Int} (h : a = b) : some Ordering.eq = some (compare a b) := by rw [compare_eq_iff_eq.mpr h]
  have more {a b : Int} (h : b < a) : some Ordering.gt = some (compare a b) := by rw [compare_gt_iff_gt.mpr h]
  have full : 0 < Decimal.infinityBits := by decide
  cases ranked <;> cases ranked'
  case above.above => exact congrArg some ((compare_magnitudes _ _).trans (compare_natCast _ _).symm)
  case below.below =>
    rw [compare_neg_natCast, ← compare_magnitudes]
    rfl
  all_goals first | exact less (by omega) | exact equal (by omega) | exact more (by omega)
theorem undefined_or_defined (x y : Float) : (x.isNaN ∨ y.isNaN) ∨ x.isNaN = false ∧ y.isNaN = false := by
  cases x.isNaN <;> cases y.isNaN <;> simp
/-- Numbers that are defined compare as their integers do. -/
theorem compare_parts (defined : x.isNaN = false) (defined' : y.isNaN = false) :
    (parts x).compare (parts y) = some (compare (rank x) (rank y)) := (ranked defined).compare_eq (ranked defined')
theorem compare_parts_of_isNaN (undefined : x.isNaN ∨ y.isNaN) : (parts x).compare (parts y) = none := by
  change (parts x).isNaN ∨ (parts y).isNaN at undefined
  generalize parts x = u at undefined
  generalize parts y = v at undefined
  rcases undefined with left | right
  · cases u with
    | notANumber => rfl
    | _ => cases left
  · cases v with
    | notANumber => cases u with
      | notANumber => rfl
      | zero s | finite s _ _ _ | infinity s => cases s <;> rfl
    | _ => cases right

theorem lt_iff : x < y ↔ (parts x).compare (parts y) = some .lt := by
  show decide (((parts x).compare (parts y) == some .lt) = true) = true ↔ _
  rw [decide_eq_true_iff, beq_iff_eq]
/-- Two numbers that are defined compare as their integers do. -/
theorem orderNumbers_of_defined (defined : x.isNaN = false) (defined' : y.isNaN = false) :
    orderNumbers x y = some (compare (rank x) (rank y)) := by
  have equal : x == y ↔ compare (rank x) (rank y) = .eq := by
    rw [beq_iff, ← compare_eq_iff, compare_parts defined defined', Option.some.injEq]
  have less : x < y ↔ compare (rank x) (rank y) = .lt := by
    rw [lt_iff, compare_parts defined defined', Option.some.injEq]
  have more : y < x ↔ compare (rank x) (rank y) = .gt := by
    rw [lt_iff, compare_parts defined' defined, Option.some.injEq, compare_lt_iff_lt, compare_gt_iff_gt]
  simp only [orderNumbers, less, equal, more]
  cases compare (rank x) (rank y) <;> rfl
/-- The undefined number compares with none. -/
theorem orderNumbers_of_isNaN (undefined : x.isNaN ∨ y.isNaN) : orderNumbers x y = none := by
  have left : ¬ x < y := by simp [lt_iff, compare_parts_of_isNaN undefined]
  have equal : ¬ x == y := by simp [beq_iff, ← compare_eq_iff, compare_parts_of_isNaN undefined]
  have right : ¬ y < x := by simp [lt_iff, compare_parts_of_isNaN undefined.symm]
  rw [orderNumbers, if_neg left, if_neg equal, if_neg right]
theorem orderNumbers_eq (x y : Float) : orderNumbers x y = (parts x).compare (parts y) := by
  rcases undefined_or_defined x y with undefined | ⟨defined, defined'⟩
  · rw [orderNumbers_of_isNaN undefined, compare_parts_of_isNaN undefined]
  · rw [orderNumbers_of_defined defined defined', compare_parts defined defined']

/-! ### The laws of an order -/

/-- Two numbers are equal exactly if they compare so. -/
theorem beq_eq_orderNumbers (x y : Float) : (x == y) = (orderNumbers x y == some .eq) := by
  have same : (orderNumbers x y == some .eq) = true ↔ orderNumbers x y = some .eq := beq_iff_eq
  rw [Bool.eq_iff_iff, same, beq_iff, ← compare_eq_iff, orderNumbers_eq]
theorem orderNumbers_swap (x y : Float) : orderNumbers y x = (orderNumbers x y).map Ordering.swap := by
  rcases undefined_or_defined x y with undefined | ⟨defined, defined'⟩
  · rw [orderNumbers_of_isNaN undefined, orderNumbers_of_isNaN undefined.symm]
    rfl
  · have swapped : compare (rank y) (rank x) = (compare (rank x) (rank y)).swap := Std.OrientedCmp.eq_swap
    rw [orderNumbers_of_defined defined defined', orderNumbers_of_defined defined' defined, swapped]
    rfl
theorem orderNumbers_eq_lt :
    orderNumbers x y = some .lt ↔ x.isNaN = false ∧ y.isNaN = false ∧ rank x < rank y := by
  rcases undefined_or_defined x y with undefined | ⟨defined, defined'⟩
  · rw [orderNumbers_of_isNaN undefined]
    refine iff_of_false (by simp) ?_
    rintro ⟨defined, defined', _⟩
    simp only [defined, defined', Bool.false_eq_true, or_self] at undefined
  · rw [orderNumbers_of_defined defined defined', Option.some.injEq, compare_lt_iff_lt]
    exact ⟨fun less => ⟨defined, defined', less⟩, fun ⟨_, _, less⟩ => less⟩
theorem orderNumbers_trans (first : orderNumbers x y = some .lt) (rest : orderNumbers y z = some .lt) :
    orderNumbers x z = some .lt := by
  obtain ⟨defined, _, less⟩ := orderNumbers_eq_lt.mp first
  obtain ⟨_, defined', less'⟩ := orderNumbers_eq_lt.mp rest
  exact orderNumbers_eq_lt.mpr ⟨defined, defined', Int.lt_trans less less'⟩

/-! ### Rational numbers -/

/-- The rational number that the bits of a finite double without a sign stand for. -/
def magnitude (b : Nat) : ℚ := Decimal.mantissa b * 2 ^ Decimal.exponent b
/-- The rational number that the integer of a finite double stands for. -/
def worth : Int → ℚ
  | .ofNat b => magnitude b
  | .negSucc b => -magnitude (b + 1)

theorem mantissa_lt (b : Nat) : Decimal.mantissa b < 2 ^ 53 := by
  have unit : Decimal.exponentBit = 2 ^ 52 := rfl
  rw [Decimal.mantissa, unit]
  split <;> omega
theorem le_mantissa {b : Nat} (normal : -1074 < Decimal.exponent b) : 2 ^ 52 ≤ Decimal.mantissa b := by
  have unit : Decimal.exponentBit = 2 ^ 52 := rfl
  rw [Decimal.exponent, unit] at normal
  rw [Decimal.mantissa, unit]
  split at normal
  · omega
  · next large =>
    rw [if_neg large]
    omega
theorem le_exponent (b : Nat) : -1074 ≤ Decimal.exponent b := by
  have unit : Decimal.exponentBit = 2 ^ 52 := rfl
  rw [Decimal.exponent, unit]
  split <;> omega
/-- More bits stand for a larger number: between different exponents the implicit bit decides. -/
theorem magnitude_strictMono : StrictMono magnitude := by
  intro b c less
  rcases exponent_lt_or less with lower | ⟨same, lower⟩
  · have normal := le_mantissa (Int.lt_of_le_of_lt (le_exponent b) lower)
    calc magnitude b < 2 ^ 53 * 2 ^ Decimal.exponent b := by
          refine mul_lt_mul_of_pos_right ?_ (by positivity)
          exact_mod_cast mantissa_lt b
      _ = 2 ^ 52 * 2 ^ (Decimal.exponent b + 1) := by
          rw [zpow_add_one₀ two_ne_zero]
          ring
      _ ≤ 2 ^ 52 * 2 ^ Decimal.exponent c := by
          refine mul_le_mul_of_nonneg_left ?_ (by positivity)
          exact zpow_le_zpow_right₀ one_le_two lower
      _ ≤ magnitude c := by
          refine mul_le_mul_of_nonneg_right ?_ (by positivity)
          exact_mod_cast normal
  · rw [magnitude, magnitude, same]
    refine mul_lt_mul_of_pos_right ?_ (by positivity)
    exact_mod_cast lower
theorem magnitude_zero : magnitude 0 = 0 := by
  have none : Decimal.mantissa 0 = 0 := by decide
  rw [magnitude, none, Nat.cast_zero, zero_mul]
theorem worth_strictMono : StrictMono worth := by
  intro a b less
  cases a with
  | ofNat c => cases b with
    | ofNat d => exact magnitude_strictMono (Int.ofNat_lt.mp less)
    | negSucc d =>
      have negative : Int.ofNat c < 0 := Int.lt_trans less (Int.negSucc_lt_zero d)
      exact absurd negative (Int.not_lt.mpr (Int.natCast_nonneg c))
  | negSucc c =>
    have pos : magnitude 0 < magnitude (c + 1) := magnitude_strictMono (Nat.succ_pos c)
    cases b with
    | ofNat d =>
      have nonneg : magnitude 0 ≤ magnitude d := magnitude_strictMono.monotone (Nat.zero_le d)
      rw [magnitude_zero] at pos nonneg
      exact (neg_lt_zero.mpr pos).trans_le nonneg
    | negSucc d => exact neg_lt_neg (magnitude_strictMono (by omega))
theorem Ranked.rational?_eq {u : UnpackedFloat} {a : Int} {q : ℚ} (ranked : Ranked u a)
    (value : rational? u = some q) : q = worth a := by
  cases ranked with
  | zero s =>
    cases value
    exact magnitude_zero.symm
  | above pos some finite =>
    cases value
    rfl
  | @below b pos some finite =>
    cases value
    obtain ⟨c, rfl⟩ := Nat.exists_eq_succ_of_ne_zero (Nat.ne_of_gt some)
    rfl
  | top => cases value
  | bottom => cases value
theorem isNaN_of_value? {q : ℚ} (value : value? x = some q) : x.isNaN = false := by
  change (parts x).isNaN = false
  rw [value?] at value
  cases same : parts x with
  | notANumber =>
    rw [same] at value
    cases value
  | zero _ | finite _ _ _ _ | infinity _ => rfl
/-- Finite numbers compare as the rational numbers that they stand for. -/
theorem orderNumbers_of_value? {q r : ℚ} (value : value? x = some q) (value' : value? y = some r) :
    orderNumbers x y = some (compare q r) := by
  have defined := isNaN_of_value? value
  have defined' := isNaN_of_value? value'
  rw [orderNumbers_of_defined defined defined', (ranked defined).rational?_eq value,
    (ranked defined').rational?_eq value', ← cmp_eq_compare, ← cmp_eq_compare, worth_strictMono.cmp_map_eq]

end KoreanScript.Number
