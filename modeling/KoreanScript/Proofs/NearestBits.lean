import Mathlib.Algebra.Group.Nat.Defs
import Mathlib.Tactic.ByContra
import KoreanScript.Decimal.Shortest

/-!
The double nearest to a decimal hangs on the value of the decimal alone, however
the decimal is written: on the quotient of `n` and `d`, not on `n` and `d`, and on
`d · 10^e`, not on `d` and `e`. And a decimal that is a double is its own nearest
double.
-/
namespace KoreanScript.Decimal

variable {n d : Nat}

/-! ### Quotients -/

theorem roundDiv_scale {c : Nat} (pos : 0 < c) (n d : Nat) :
    roundDiv (c * n) (c * d) = roundDiv n d := by
  have quotient : c * n / (c * d) = n / d := Nat.mul_div_mul_left n d pos
  have rest : 2 * (c * n % (c * d)) = c * (2 * (n % d)) := by
    rw [Nat.mul_mod_mul_left, Nat.mul_left_comm]
  have above : c * d < c * (2 * (n % d)) ↔ d < 2 * (n % d) := Nat.mul_lt_mul_left pos
  have tie : c * (2 * (n % d)) = c * d ↔ 2 * (n % d) = d := Nat.mul_right_inj (Nat.ne_of_gt pos)
  unfold roundDiv
  simp only [quotient, rest, above, tie]
theorem roundDiv_mul (n : Nat) (pos : 0 < d) : roundDiv (n * d) d = n := by
  have whole : ¬ (d < 2 * (n * d % d) ∨ (2 * (n * d % d) = d ∧ n * d / d % 2 = 1)) := by
    rw [Nat.mul_mod_left]
    omega
  rw [roundDiv, if_neg whole, Nat.mul_div_cancel n pos]

/-- `2^k ≤ n / d`. -/
def PowLe (k : Int) (n d : Nat) : Prop := d * 2 ^ k.toNat ≤ n * 2 ^ (-k).toNat

/-- The power may be split in any way. -/
theorem powLe_iff {k : Int} {a b : Nat} (split : k = a - b) : PowLe k n d ↔ d * 2 ^ a ≤ n * 2 ^ b := by
  have above : a = k.toNat + min a b := by omega
  have below : b = (-k).toNat + min a b := by omega
  have shift : ∀ m j : Nat, m * 2 ^ (j + min a b) = m * 2 ^ j * 2 ^ min a b := by
    intro m j
    rw [Nat.pow_add, Nat.mul_assoc]
  have same : d * 2 ^ a ≤ n * 2 ^ b ↔
      d * 2 ^ k.toNat * 2 ^ min a b ≤ n * 2 ^ (-k).toNat * 2 ^ min a b := by
    rw [← shift, ← shift, ← above, ← below]
  rw [same, PowLe]
  exact (Nat.mul_le_mul_right_iff (Nat.two_pow_pos _)).symm
theorem PowLe.mono {j k : Int} (h : PowLe k n d) (le : j ≤ k) : PowLe j n d := by
  obtain ⟨i, rfl⟩ : ∃ i : Nat, k = j + i := ⟨(k - j).toNat, by omega⟩
  have first := (powLe_iff (a := j.toNat + i) (b := (-j).toNat) (by omega)).mp h
  rw [Nat.pow_add, ← Nat.mul_assoc] at first
  exact Nat.le_trans (Nat.le_mul_of_pos_right _ (Nat.two_pow_pos i)) first
theorem floorLog_spec (hn : 0 < n) (hd : 0 < d) :
    PowLe (floorLog n d) n d ∧ ¬ PowLe (floorLog n d + 1) n d := by
  have lower : 2 ^ n.log2 ≤ n := Nat.log2_self_le (Nat.ne_of_gt hn)
  have upper : n < 2 ^ (n.log2 + 1) := Nat.lt_log2_self
  have lower' : 2 ^ d.log2 ≤ d := Nat.log2_self_le (Nat.ne_of_gt hd)
  have upper' : d < 2 ^ (d.log2 + 1) := Nat.lt_log2_self
  simp only [floorLog, Nat.pow_eq]
  split
  · next reached =>
    refine ⟨(powLe_iff rfl).mpr reached, ?_⟩
    rw [powLe_iff (a := n.log2 + 1) (b := d.log2) (by omega), Nat.not_le]
    calc n * 2 ^ d.log2 < 2 ^ (n.log2 + 1) * 2 ^ d.log2 := Nat.mul_lt_mul_of_pos_right upper (Nat.two_pow_pos _)
      _ ≤ 2 ^ (n.log2 + 1) * d := Nat.mul_le_mul_left _ lower'
      _ = d * 2 ^ (n.log2 + 1) := Nat.mul_comm _ _
  · next missed =>
    constructor
    · rw [powLe_iff (a := n.log2) (b := d.log2 + 1) (by omega)]
      calc d * 2 ^ n.log2 ≤ 2 ^ (d.log2 + 1) * 2 ^ n.log2 := Nat.mul_le_mul_right _ (Nat.le_of_lt upper')
        _ ≤ 2 ^ (d.log2 + 1) * n := Nat.mul_le_mul_left _ lower
        _ = n * 2 ^ (d.log2 + 1) := Nat.mul_comm _ _
    · rwa [powLe_iff (a := n.log2) (b := d.log2) (by omega)]
theorem floorLog_eq {k : Int} (hn : 0 < n) (hd : 0 < d) (reached : PowLe k n d)
    (missed : ¬ PowLe (k + 1) n d) : floorLog n d = k := by
  obtain ⟨reached', missed'⟩ := floorLog_spec hn hd
  have below : ¬ floorLog n d < k := fun less => missed' (reached.mono (by omega))
  have above : ¬ k < floorLog n d := fun less => missed (reached'.mono (by omega))
  omega
theorem powLe_scale {c : Nat} (pos : 0 < c) (k : Int) (n d : Nat) : PowLe k (c * n) (c * d) ↔ PowLe k n d := by
  unfold PowLe
  rw [Nat.mul_assoc, Nat.mul_assoc]
  exact Nat.mul_le_mul_left_iff pos
theorem floorLog_scale {c : Nat} (pos : 0 < c) (hn : 0 < n) (hd : 0 < d) :
    floorLog (c * n) (c * d) = floorLog n d := by
  obtain ⟨reached, missed⟩ := floorLog_spec hn hd
  exact floorLog_eq (Nat.mul_pos pos hn) (Nat.mul_pos pos hd) ((powLe_scale pos _ _ _).mpr reached)
    (missed ∘ (powLe_scale pos _ _ _).mp)
theorem countIn_scale {c : Nat} (pos : 0 < c) (q : Int) (n d : Nat) :
    countIn q (c * n) (c * d) = countIn q n d := by
  cases q with
  | ofNat k =>
    simp only [countIn]
    rw [Nat.mul_assoc, roundDiv_scale pos]
  | negSucc k =>
    simp only [countIn]
    rw [Nat.mul_assoc, roundDiv_scale pos]
/-- The nearest double of a quotient hangs on the quotient alone. -/
theorem ratioBits_scale {c : Nat} (pos : 0 < c) (hn : 0 < n) (hd : 0 < d) :
    ratioBits (c * n) (c * d) = ratioBits n d := by
  have some : c * n ≠ 0 := Nat.ne_of_gt (Nat.mul_pos pos hn)
  have some' : n ≠ 0 := Nat.ne_of_gt hn
  simp only [ratioBits, if_neg some, if_neg some', unitExponent, floorLog_scale pos hn hd,
    countIn_scale pos]

/-! ### Decimals -/

theorem width_le_iff {k : Nat} (pos : 0 < k) : width n ≤ k ↔ n < 10 ^ k :=
  Nat.length_toDigits_le_iff (by decide) pos
theorem width_pos (n : Nat) : 0 < width n := Nat.length_toDigits_pos
/-- One more digit. -/
theorem width_ten_mul (hn : 0 < n) : width (10 * n) = width n + 1 := by
  have split := Nat.toDigits_append_toDigits (b := 10) (d := 0) (by decide) hn (by decide)
  unfold width
  rw [Nat.add_zero] at split
  rw [← split, List.length_append, Nat.toDigits_zero]
  rfl
/-- The nearest double of a decimal stays when a zero is written behind its digits. -/
theorem nearestBits_ten_mul (hd : 0 < d) (e : Int) : nearestBits (10 * d) e = nearestBits d (e + 1) := by
  have some : d ≠ 0 := Nat.ne_of_gt hd
  have some' : 10 * d ≠ 0 := by omega
  have size : (width (10 * d) : Int) + e = width d + (e + 1) := by
    rw [width_ten_mul hd]
    omega
  unfold nearestBits
  rw [if_neg some, if_neg some', size]
  congr 2
  cases e with
  | ofNat k =>
    show ratioBits (10 * d * 10 ^ k) 1 = ratioBits (d * 10 ^ (k + 1)) 1
    rw [Nat.pow_succ, Nat.mul_comm 10 d, Nat.mul_assoc, Nat.mul_comm 10]
  | negSucc k =>
    cases k with
    | zero =>
      show ratioBits (10 * d) (10 * 1) = ratioBits (d * 1) 1
      rw [Nat.mul_one d, ratioBits_scale (by decide) hd (by decide)]
    | succ k =>
      show ratioBits (10 * d) (10 ^ (k + 1 + 1)) = ratioBits d (10 ^ (k + 1))
      rw [Nat.pow_succ 10 (k + 1), Nat.mul_comm _ 10, ratioBits_scale (by decide) hd (Nat.pow_pos (by decide))]
theorem nearestBits_mul_pow (hd : 0 < d) (j : Nat) (e : Int) :
    nearestBits (d * 10 ^ j) e = nearestBits d (e + j) := by
  induction j generalizing e with
  | zero => simp
  | succ j ih =>
    have pos : 0 < d * 10 ^ j := Nat.mul_pos hd (Nat.pow_pos (by decide))
    have regroup : d * 10 ^ (j + 1) = 10 * (d * 10 ^ j) := by
      rw [Nat.pow_succ, ← Nat.mul_assoc, Nat.mul_comm]
    have shift : e + 1 + j = e + (j + 1 : Nat) := by omega
    rw [regroup, nearestBits_ten_mul pos, ih, shift]

/-! ### Doubles -/

/-- What the bits of a finite double count, and in which unit. -/
structure Counts (bits m : Nat) (q : Int) : Prop where
  pos : 0 < m
  bounded : m < 2 ^ 53
  range : -1074 ≤ q ∧ q ≤ 971
  /-- The unit is the finest one unless the count is full. -/
  full : 2 ^ 52 ≤ m ∨ q = -1074
  bits_eq : (q + 1074).toNat * exponentBit + m = bits

variable {bits m : Nat} {q : Int}

theorem Counts.log2_le (counts : Counts bits m q) : m.log2 ≤ 52 := by
  have below := (Nat.log2_lt (Nat.ne_of_gt counts.pos)).mpr counts.bounded
  omega
theorem Counts.unit (counts : Counts bits m q) : max (-1074) ((m.log2 : Int) + q - 52) = q := by
  have upper := counts.log2_le
  obtain ⟨least, _⟩ := counts.range
  rcases counts.full with full | finest
  · have lower := (Nat.le_log2 (Nat.ne_of_gt counts.pos)).mpr full
    omega
  · omega
theorem floorLog_pow (pos : 0 < m) (a b : Nat) :
    floorLog (m * 2 ^ a) (2 ^ b) = m.log2 + ((a : Int) - b) := by
  have lower : 2 ^ m.log2 ≤ m := Nat.log2_self_le (Nat.ne_of_gt pos)
  have upper : m < 2 ^ (m.log2 + 1) := Nat.lt_log2_self
  apply floorLog_eq (Nat.mul_pos pos (Nat.two_pow_pos a)) (Nat.two_pow_pos b)
  · rw [powLe_iff (a := m.log2 + a) (b := b) (by omega), Nat.mul_comm, Nat.pow_add]
    exact Nat.mul_le_mul_right _ (Nat.mul_le_mul_right _ lower)
  · rw [powLe_iff (a := m.log2 + 1 + a) (b := b) (by omega), Nat.mul_comm, Nat.pow_add, Nat.not_le]
    exact Nat.mul_lt_mul_of_pos_right (Nat.mul_lt_mul_of_pos_right upper (Nat.two_pow_pos a))
      (Nat.two_pow_pos b)
theorem countIn_pow (m : Nat) (q : Int) : countIn q (m * 2 ^ q.toNat) (2 ^ (-q).toNat) = m := by
  cases q with
  | ofNat k =>
    have whole : (-Int.ofNat k).toNat = 0 := Int.toNat_of_nonpos (by simp)
    rw [whole]
    show roundDiv (m * 2 ^ k) (1 * 2 ^ k) = m
    rw [Nat.one_mul, roundDiv_mul m (Nat.two_pow_pos k)]
  | negSucc k =>
    show roundDiv (m * 2 ^ 0 * 2 ^ (k + 1)) (2 ^ (k + 1)) = m
    rw [Nat.pow_zero, Nat.mul_one, roundDiv_mul m (Nat.two_pow_pos _)]
/-- A double is the nearest double of its value. -/
theorem Counts.ratioBits_eq (counts : Counts bits m q) (finite : bits ≤ infinityBits) :
    ratioBits (m * 2 ^ q.toNat) (2 ^ (-q).toNat) = bits := by
  have some : m * 2 ^ q.toNat ≠ 0 := Nat.ne_of_gt (Nat.mul_pos counts.pos (Nat.two_pow_pos _))
  have exponent : ((q.toNat : Int) - (-q).toNat) = q := by omega
  simp only [ratioBits, if_neg some, unitExponent, floorLog_pow counts.pos, exponent, counts.unit,
    countIn_pow, counts.bits_eq]
  exact Nat.min_eq_left finite
theorem width_whole {k : Nat} (bounded : m < 2 ^ 53) (most : k ≤ 971) : width (m * 2 ^ k) ≤ 310 := by
  rw [width_le_iff (by decide)]
  calc m * 2 ^ k < 2 ^ 53 * 2 ^ k := Nat.mul_lt_mul_of_pos_right bounded (Nat.two_pow_pos k)
    _ ≤ 2 ^ 53 * 2 ^ 971 := Nat.mul_le_mul_left _ (Nat.pow_le_pow_right (by decide) most)
    _ < 10 ^ 310 := by decide +kernel
theorem width_fraction_le {k : Nat} (bounded : m < 2 ^ 53) : width (m * 5 ^ k) ≤ 310 + k := by
  have large : 2 ^ 53 ≤ 10 ^ 310 := by decide +kernel
  rw [width_le_iff (by omega), Nat.pow_add]
  calc m * 5 ^ k < 2 ^ 53 * 5 ^ k := Nat.mul_lt_mul_of_pos_right bounded (Nat.pow_pos (by decide))
    _ ≤ 2 ^ 53 * 10 ^ k := Nat.mul_le_mul_left _ (Nat.pow_le_pow_left (by decide) k)
    _ ≤ 10 ^ 310 * 10 ^ k := Nat.mul_le_mul_right _ large
theorem le_width_fraction {k : Nat} (pos : 0 < m) (most : k ≤ 1074) : k ≤ width (m * 5 ^ k) + 325 := by
  by_contra short
  obtain ⟨j, rfl⟩ : ∃ j, k = j + 326 := ⟨k - 326, by have := width_pos (m * 5 ^ k); omega⟩
  have few : width (m * 5 ^ (j + 326)) ≤ j := by omega
  have some : 0 < j := Nat.lt_of_lt_of_le (width_pos _) few
  rw [width_le_iff some] at few
  have close : j ≤ 748 := by omega
  have large : 2 ^ j ≤ 5 ^ 326 := by
    refine Nat.le_trans (Nat.pow_le_pow_right ?_ close) ?_
    · decide
    · decide +kernel
  have many : 10 ^ j ≤ m * 5 ^ (j + 326) := by
    calc 10 ^ j = 5 ^ j * 2 ^ j := by rw [← Nat.mul_pow]
      _ ≤ 5 ^ j * 5 ^ 326 := Nat.mul_le_mul_left _ large
      _ = 5 ^ (j + 326) := by rw [Nat.pow_add]
      _ ≤ m * 5 ^ (j + 326) := Nat.le_mul_of_pos_left _ pos
  exact Nat.not_le.mpr few many
/-- The exact decimal of a double has neither too many digits nor too few. -/
theorem Counts.width_exact (counts : Counts bits m q) :
    ¬ 310 < (width (exact m q).1 : Int) + (exact m q).2 ∧
      ¬ (width (exact m q).1 : Int) + (exact m q).2 < -325 := by
  obtain ⟨least, most⟩ := counts.range
  cases q with
  | ofNat k =>
    have upper : width (m * 2 ^ k) ≤ 310 := width_whole counts.bounded (Int.ofNat_le.mp most)
    simp only [exact, Nat.pow_eq]
    omega
  | negSucc k =>
    have upper : width (m * 5 ^ (k + 1)) ≤ 310 + (k + 1) := width_fraction_le counts.bounded
    have lower : k + 1 ≤ width (m * 5 ^ (k + 1)) + 325 := le_width_fraction counts.pos (by omega)
    simp only [exact, Nat.pow_eq]
    omega
/-- The exact decimal of a double has the double as its nearest. -/
theorem Counts.nearestBits_exact (counts : Counts bits m q) (finite : bits ≤ infinityBits) :
    nearestBits (exact m q).1 (exact m q).2 = bits := by
  obtain ⟨small, large⟩ := counts.width_exact
  have reads := counts.ratioBits_eq finite
  cases q with
  | ofNat k =>
    have whole : (-Int.ofNat k).toNat = 0 := Int.toNat_of_nonpos (by simp)
    rw [whole] at reads
    have some : m * 2 ^ k ≠ 0 := Nat.ne_of_gt (Nat.mul_pos counts.pos (Nat.two_pow_pos k))
    simp only [exact, Nat.pow_eq] at small large ⊢
    unfold nearestBits
    rw [if_neg some, if_neg small, if_neg large]
    show ratioBits (m * 2 ^ k * 10 ^ 0) 1 = bits
    rw [Nat.pow_zero, Nat.mul_one]
    exact reads
  | negSucc k =>
    have some : m * 5 ^ (k + 1) ≠ 0 := Nat.ne_of_gt (Nat.mul_pos counts.pos (Nat.pow_pos (by decide)))
    simp only [exact, Nat.pow_eq] at small large ⊢
    rw [nearestBits, if_neg some, if_neg small, if_neg large]
    show ratioBits (m * 5 ^ (k + 1)) ((5 * 2) ^ (k + 1)) = bits
    rw [Nat.mul_pow, Nat.mul_comm m, ratioBits_scale (Nat.pow_pos (by decide)) counts.pos (Nat.two_pow_pos _)]
    rw [← Nat.mul_one m]
    exact reads

end KoreanScript.Decimal
