import KoreanScript.Proofs.FloatBits
import KoreanScript.Proofs.NearestBits
import KoreanScript.Proofs.Numerals

/-!
The text of a number reads back. Whatever decimal the search for the shortest one
ends with has the double as its nearest, zeros at the end of a decimal do not
count, and the positional text denotes the decimal that it was made of.
-/
namespace KoreanScript.Decimal

variable {bits n d : Nat} {e : Int}

/-! ### The search -/

theorem nearestBits_neighbour {k : Nat} (found : neighbour? bits n e k = some d) :
    nearestBits d (e + k) = bits := by
  unfold neighbour? at found
  simp only at found
  split at found
  · next low =>
    cases found
    exact eq_of_beq (Bool.and_eq_true_iff.mp low).1
  split at found
  · next high =>
    cases found
    exact eq_of_beq high
  · cases found
theorem nearestBits_shorten (reads : nearestBits n e = bits) (k : Nat) :
    nearestBits (shorten bits n e k).1 (shorten bits n e k).2 = bits := by
  induction k with
  | zero => exact reads
  | succ k ih =>
    rw [shorten]
    cases found : neighbour? bits n e (k + 1) with
    | some d => exact nearestBits_neighbour found
    | none => exact ih
theorem nearestBits_trim (d : Nat) (e : Int) :
    nearestBits (trim d e).1 (trim d e).2 = nearestBits d e := by
  induction d using Nat.strongRecOn generalizing e with
  | _ d ih =>
    rw [trim]
    split
    · next zero =>
      obtain ⟨some, last⟩ := zero
      have pos : 0 < d / 10 := by omega
      have whole : 10 * (d / 10) = d := by omega
      rw [ih (d / 10) (by omega), ← nearestBits_ten_mul pos, whole]
    · rfl
/-- The shortest decimal of a double has the double as its nearest. -/
theorem Counts.nearestBits_shortest {m : Nat} {q : Int} (counts : Counts bits m q)
    (finite : bits ≤ infinityBits) (count : mantissa bits = m) (unit : exponent bits = q) :
    nearestBits (shortest bits).1 (shortest bits).2 = bits := by
  subst count unit
  rw [shortest]
  simp only
  rw [nearestBits_trim]
  exact nearestBits_shorten (counts.nearestBits_exact finite) _
/-- The bits of a positive finite double count what they are said to. -/
theorem counts_bits (pos : 0 < bits) (finite : bits < infinityBits) :
    Counts bits (mantissa bits) (exponent bits) := by
  have unit : exponentBit = 2 ^ 52 := rfl
  have top : infinityBits = 2047 * 2 ^ 52 := rfl
  rw [top] at finite
  by_cases small : bits < exponentBit
  · have count : mantissa bits = bits := if_pos small
    have finest : exponent bits = -1074 := if_pos small
    rw [count, finest]
    rw [unit] at small
    exact ⟨pos, by omega, by omega, .inr rfl, by simp⟩
  · have count : mantissa bits = exponentBit + bits % exponentBit := if_neg small
    have finest : exponent bits = (bits / exponentBit : Nat) - 1075 := if_neg small
    rw [count, finest, unit]
    rw [unit] at small
    refine ⟨by omega, by omega, by omega, .inl (by omega), ?_⟩
    rw [unit]
    omega
/-- The shortest decimal of a positive finite double has the double as its nearest. -/
theorem nearestBits_shortest (pos : 0 < bits) (finite : bits < infinityBits) :
    nearestBits (shortest bits).1 (shortest bits).2 = bits :=
  (counts_bits pos finite).nearestBits_shortest (Nat.le_of_lt finite) rfl rfl

/-! ### The text -/

theorem ofDigits_eq (ds : List Char) : ofDigits ds = Nat.ofDigitChars 10 ds 0 := rfl
theorem ofDigits_toDigits (n : Nat) : ofDigits (Nat.toDigits 10 n) = n := by
  rw [ofDigits_eq, Nat.ofDigitChars_ten_toDigits]
theorem ofDigits_append_zeros (n k : Nat) :
    ofDigits (Nat.toDigits 10 n ++ List.replicate k '0') = n * 10 ^ k := by
  rw [ofDigits_eq, Nat.ofDigitChars_append, Nat.ofDigitChars_ten_toDigits,
    Nat.ofDigitChars_replicate_zero, Nat.mul_comm]
theorem ofDigits_zeros_append (k n : Nat) :
    ofDigits (List.replicate k '0' ++ Nat.toDigits 10 n) = n := by
  rw [ofDigits_eq, Nat.ofDigitChars_append, Nat.ofDigitChars_replicate_zero, Nat.mul_zero,
    Nat.ofDigitChars_ten_toDigits]
theorem isDigit_toDigits (n : Nat) : ∀ c ∈ Nat.toDigits 10 n, c.isDigit :=
  fun _ member => Nat.isDigit_of_mem_toDigits (by decide) (by decide) member
theorem isDigit_zeros (k : Nat) : ∀ c ∈ List.replicate k '0', c.isDigit := by
  intro c member
  rw [List.eq_of_mem_replicate member]
  decide
theorem isDigit_whole (n k : Nat) : ∀ c ∈ Nat.toDigits 10 n ++ List.replicate k '0', c.isDigit := by
  intro c member
  rcases List.mem_append.mp member with digit | zero
  · exact isDigit_toDigits n c digit
  · exact isDigit_zeros k c zero
/-- Where the point of a decimal stands: digits around it that make up the decimal. -/
theorem pointed_eq (n : Nat) {places : Nat} (some : 0 < places) :
    ∃ ds es, pointed (Nat.toDigits 10 n) places = ds ++ '.' :: es ∧ ds ≠ [] ∧
      (∀ c ∈ ds, c.isDigit) ∧ (∀ c ∈ es, c.isDigit) ∧ es.length = places ∧ ofDigits (ds ++ es) = n := by
  have digits := isDigit_toDigits n
  unfold pointed
  split
  · next short =>
    refine ⟨['0'], List.replicate (places - (Nat.toDigits 10 n).length) '0' ++ Nat.toDigits 10 n, rfl,
      by simp, by simp, ?_, ?_, ?_⟩
    · intro c member
      rcases List.mem_append.mp member with zero | digit
      · exact isDigit_zeros _ c zero
      · exact digits c digit
    · rw [List.length_append, List.length_replicate]
      omega
    · have zeros := ofDigits_zeros_append (places - (Nat.toDigits 10 n).length + 1) n
      rwa [List.replicate_succ] at zeros
  · next long =>
    refine ⟨_, _, rfl, ?_, ?_, ?_, ?_, ?_⟩
    · rw [← List.length_pos_iff, List.length_take]
      omega
    · exact fun c member => digits c (List.mem_of_mem_take member)
    · exact fun c member => digits c (List.mem_of_mem_drop member)
    · rw [List.length_drop]
      omega
    · rw [List.take_append_drop, ofDigits_toDigits]
/-- The positional text of a decimal is a numeral of its value. -/
theorem numeral?_positional (pos : 0 < d) (e : Int) : numeral? (positional d e) = some (nearest d e) := by
  cases e with
  | ofNat k =>
    have digits := isDigit_whole d k
    have front : Nat.toDigits 10 d ++ List.replicate k '0' ≠ [] := by simp
    rw [positional, numeral?_whole digits front, ofDigits_append_zeros]
    simp only [nearest, nearestBits_mul_pow pos, Int.zero_add]
    rfl
  | negSucc k =>
    obtain ⟨ds, es, split, front, digits, more, length, value⟩ := pointed_eq d (Nat.succ_pos k)
    rw [positional, split, numeral?_point digits front more, value, length]
    rfl
/-- A positional text is digits with at most a point among them. -/
theorem positional_eq (d : Nat) (e : Int) :
    ∃ c cs, positional d e = c :: cs ∧ c.isDigit ∧ ∀ b ∈ cs, Lexeme.continuesNumber b := by
  have inside : ∀ c : Char, c.isDigit → Lexeme.continuesNumber c := by
    intro c digit
    simp [Lexeme.continuesNumber, digit]
  cases e with
  | ofNat k =>
    have digits := isDigit_whole d k
    cases split : Nat.toDigits 10 d with
    | nil => exact absurd split Nat.toDigits_ne_nil
    | cons c cs =>
      rw [split] at digits
      refine ⟨c, cs ++ List.replicate k '0', by rw [positional, split]; rfl, digits c (by simp), ?_⟩
      exact fun b member => inside b (digits b (List.mem_cons_of_mem c member))
  | negSucc k =>
    obtain ⟨ds, es, split, front, digits, more, _⟩ := pointed_eq d (Nat.succ_pos k)
    cases ds with
    | nil => exact absurd rfl front
    | cons c ds =>
      refine ⟨c, ds ++ '.' :: es, split, digits c (by simp), ?_⟩
      intro b member
      rcases List.mem_append.mp member with before | behind
      · exact inside b (digits b (by simp [before]))
      rcases List.mem_cons.mp behind with rfl | behind
      · decide
      · exact inside b (more b behind)

/-! ### Finite numbers -/

theorem ratioBits_le (n d : Nat) : ratioBits n d ≤ infinityBits := by
  unfold ratioBits
  split
  · exact Nat.zero_le _
  · exact Nat.min_le_right _ _
theorem nearestBits_le (d : Nat) (e : Int) : nearestBits d e ≤ infinityBits := by
  unfold nearestBits
  split
  · exact Nat.zero_le _
  split
  · exact Nat.le_refl _
  split
  · exact Nat.zero_le _
  · cases e <;> exact ratioBits_le _ _
theorem nearestBits_lt (finite : (nearest d e).isFinite) : nearestBits d e < infinityBits := by
  refine Nat.lt_of_le_of_ne (nearestBits_le d e) fun top => ?_
  rw [nearest, top] at finite
  exact absurd finite (by rw [← Number.ofWord, Number.isFinite_infinity]; decide)
theorem shortest_pos (pos : 0 < bits) (finite : bits < infinityBits) : 0 < (shortest bits).1 := by
  refine Nat.pos_of_ne_zero fun zero => ?_
  have reads := nearestBits_shortest pos finite
  unfold nearestBits at reads
  rw [if_pos zero] at reads
  omega
theorem render_zero : Number.render (nearest 0 0) = "0" := by
  have zero := Number.beq_zero_ofWord (by decide : 0 < infinityBits)
  exact if_pos zero
theorem render_pos (pos : 0 < bits) (finite : bits < infinityBits) :
    Number.render (Number.ofWord bits) =
      String.ofList (positional (shortest bits).1 (shortest bits).2) := by
  have some : (bits == 0) = false := beq_eq_false_iff_ne.mpr (Nat.ne_of_gt pos)
  rw [Number.render, Number.beq_zero_ofWord finite, some, Number.text, Number.isNaN_ofWord finite,
    Number.isNegative_ofWord finite, Number.magnitudeBits_ofWord finite, Number.magnitudeText,
    if_neg (Nat.ne_of_gt pos), if_neg (Nat.ne_of_lt finite)]
  rfl
/-- The text of the double nearest to a decimal is digits with at most a point among
    them, and denotes the double. -/
theorem read?_render (finite : (nearest d e).isFinite) :
    ∃ c cs, Number.render (nearest d e) = String.ofList (c :: cs) ∧ c.isDigit ∧
      (∀ b ∈ cs, Lexeme.continuesNumber b) ∧ read? (String.ofList (c :: cs)) = some (nearest d e) := by
  have less := nearestBits_lt finite
  by_cases zero : nearestBits d e = 0
  · have same : nearest d e = nearest 0 0 := by rw [nearest, zero]; rfl
    rw [same, render_zero]
    exact ⟨'0', [], rfl, by decide, by simp, read?_of_digit (by decide)⟩
  · have pos := Nat.pos_of_ne_zero zero
    have reads := nearestBits_shortest pos less
    obtain ⟨c, cs, text, digit, inside⟩ :=
      positional_eq (shortest (nearestBits d e)).1 (shortest (nearestBits d e)).2
    refine ⟨c, cs, ?_, digit, inside, ?_⟩
    · rw [← text]
      exact render_pos pos less
    · rw [read?_of_digit digit, ← text, numeral?_positional (shortest_pos pos less), nearest, reads]
      rfl

end KoreanScript.Decimal
