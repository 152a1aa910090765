import Mathlib.Data.List.TakeDrop
import Mathlib.Data.List.TakeWhile
import KoreanScript.Decimal.Literal
import KoreanScript.Token.Scan

/-!
The texts of number tokens: digits and points with a digit in front. Such a text
denotes a number exactly if it has at most one point.
-/
namespace KoreanScript.Decimal
open Lexeme (continuesNumber)

/-- The number that digits with at most one point among them denote. -/
def literal (cs : List Char) : Float :=
  nearest (ofDigits (cs.filter (· != '.'))) (-((cs.dropWhile (· != '.')).tail.length : Int))

theorem ne_point_of_isDigit {c : Char} (digit : c.isDigit) : c ≠ '.' := by
  rintro rfl
  revert digit
  decide
theorem isDigit_of_continuesNumber {c : Char} (inside : continuesNumber c) (other : c ≠ '.') :
    c.isDigit := by
  simpa [continuesNumber, other] using inside
theorem span_append {p : Char → Bool} {cs : List Char} (rest : List Char) (all : ∀ c ∈ cs, p c)
    (ends : ∀ c ∈ rest.head?, ¬ p c) : (cs ++ rest).span p = (cs, rest) := by
  rw [List.span_eq_takeWhile_dropWhile, List.takeWhile_append_of_pos all, List.dropWhile_append_of_pos all]
  cases rest with
  | nil => simp
  | cons c rest => simp [ends c rfl]
/-- Digits and points are digits alone, or digits before a point and more of both. -/
theorem numeral_cases (cs : List Char) (inside : ∀ c ∈ cs, continuesNumber c) :
    (∀ c ∈ cs, c.isDigit) ∨ ∃ ds es, (∀ d ∈ ds, d.isDigit) ∧ cs = ds ++ '.' :: es := by
  induction cs with
  | nil => exact .inl (by simp)
  | cons c cs ih =>
    by_cases point : c = '.'
    · exact .inr ⟨[], cs, by simp, by rw [point]; rfl⟩
    · have digit : c.isDigit := isDigit_of_continuesNumber (inside c (by simp)) point
      rcases ih fun d member => inside d (by simp [member]) with digits | ⟨ds, es, digits, rfl⟩
      · exact .inl (by simpa [digit] using digits)
      · exact .inr ⟨c :: ds, es, by simpa [digit] using digits, rfl⟩

/-! ### Literals without a sign -/

theorem filter_digits {ds : List Char} (digits : ∀ d ∈ ds, d.isDigit) : ds.filter (· != '.') = ds := by
  rw [List.filter_eq_self]
  intro d member
  simpa using ne_point_of_isDigit (digits d member)
theorem count_digits {ds : List Char} (digits : ∀ d ∈ ds, d.isDigit) : ds.count '.' = 0 := by
  rw [List.count_eq_zero]
  intro member
  exact ne_point_of_isDigit (digits '.' member) rfl
theorem dropWhile_digits {ds es : List Char} (digits : ∀ d ∈ ds, d.isDigit) :
    (ds ++ '.' :: es).dropWhile (· != '.') = '.' :: es := by
  rw [List.dropWhile_append_of_pos]
  · simp
  · intro d member
    simpa using ne_point_of_isDigit (digits d member)
theorem literal_whole {ds : List Char} (digits : ∀ d ∈ ds, d.isDigit) :
    literal ds = nearest (ofDigits ds) 0 := by
  have none : ds.dropWhile (· != '.') = [] := by
    rw [List.dropWhile_eq_nil_iff]
    intro d member
    simpa using ne_point_of_isDigit (digits d member)
  rw [literal, filter_digits digits, none]
  rfl
theorem literal_point {ds es : List Char} (digits : ∀ d ∈ ds, d.isDigit) (more : ∀ e ∈ es, e.isDigit) :
    literal (ds ++ '.' :: es) = nearest (ofDigits (ds ++ es)) (-(es.length : Int)) := by
  rw [literal, dropWhile_digits digits, List.filter_append, filter_digits digits]
  simp [filter_digits more]
/-- Digits are a numeral. -/
theorem numeral?_whole {ds : List Char} (digits : ∀ d ∈ ds, d.isDigit) (front : ds ≠ []) :
    numeral? ds = some (nearest (ofDigits ds) 0) := by
  have span := span_append [] digits (by simp)
  rw [List.append_nil] at span
  rw [numeral?, span]
  simp [fraction, front, exponent?]
/-- Digits with a point among them are a numeral; a second point ends it. -/
theorem numeral?_point {ds es : List Char} (digits : ∀ d ∈ ds, d.isDigit) (front : ds ≠ [])
    (more : ∀ e ∈ es, e.isDigit) :
    numeral? (ds ++ '.' :: es) = some (nearest (ofDigits (ds ++ es)) (-(es.length : Int))) := by
  have span := span_append (p := Char.isDigit) ('.' :: es) digits (by simp)
  have span' := span_append [] more (by simp)
  rw [List.append_nil] at span'
  rw [numeral?, span]
  simp only [fraction]
  rw [span']
  simp [front, exponent?]
theorem numeral?_points {ds es fs : List Char} (digits : ∀ d ∈ ds, d.isDigit)
    (more : ∀ e ∈ es, e.isDigit) : numeral? (ds ++ '.' :: (es ++ '.' :: fs)) = none := by
  have span := span_append (p := Char.isDigit) ('.' :: (es ++ '.' :: fs)) digits (by simp)
  have span' := span_append (p := Char.isDigit) ('.' :: fs) more (by simp)
  rw [numeral?, span]
  simp only [fraction]
  rw [span']
  simp [exponent?]

/-! ### Literals -/

theorem toLower_of_isDigit {c : Char} (digit : c.isDigit) : c.toLower = c := by
  have small : c.toNat ≤ '9'.toNat := (Char.isDigit_iff_toNat.mp digit).2
  have other : ¬ (c.val ≥ 'A'.val ∧ c.val ≤ 'Z'.val) := by
    rintro ⟨large, _⟩
    have large : 'A'.toNat ≤ c.toNat := UInt32.le_iff_toNat_le.mp large
    exact absurd (Nat.le_trans large small) (by decide)
  exact dif_neg other
/-- What starts with a digit is no word. -/
theorem magnitude?_of_digit {c : Char} {cs : List Char} (digit : c.isDigit) :
    magnitude? (c :: cs) = numeral? (c :: cs) := by
  have other : ∀ (d : Char) (ds : List Char), ¬ d.isDigit →
      String.ofList ((c :: cs).map Char.toLower) ≠ String.ofList (d :: ds) := by
    intro d ds letter same
    simp only [List.map_cons, toLower_of_isDigit digit, String.ofList_inj, List.cons.injEq] at same
    exact letter (same.1 ▸ digit)
  have infinite : ¬ (String.ofList ((c :: cs).map Char.toLower) = "inf" ∨
      String.ofList ((c :: cs).map Char.toLower) = "infinity") := by
    rintro (same | same)
    · exact other 'i' ['n', 'f'] (by decide) same
    · exact other 'i' ['n', 'f', 'i', 'n', 'i', 't', 'y'] (by decide) same
  have undefined : String.ofList ((c :: cs).map Char.toLower) ≠ "nan" :=
    other 'n' ['a', 'n'] (by decide)
  rw [magnitude?, if_neg infinite, if_neg undefined]
/-- What starts with a digit has no sign. -/
theorem read?_of_digit {c : Char} {cs : List Char} (digit : c.isDigit) :
    read? (String.ofList (c :: cs)) = numeral? (c :: cs) := by
  rw [read?, String.toList_ofList]
  split
  · next same => simp only [List.cons.injEq] at same; simp [same.1] at digit
  · next same => simp only [List.cons.injEq] at same; simp [same.1] at digit
  · exact magnitude?_of_digit digit
/-- A text of digits and points denotes a number exactly if it has at most one point. -/
theorem read?_digits {c : Char} {cs : List Char} (digit : c.isDigit) (inside : ∀ d ∈ cs, continuesNumber d) :
    read? (String.ofList (c :: cs)) =
      if (c :: cs).count '.' ≤ 1 then some (literal (c :: cs)) else none := by
  rw [read?_of_digit digit]
  have all : ∀ d ∈ c :: cs, continuesNumber d := by simpa [continuesNumber, digit] using inside
  rcases numeral_cases (c :: cs) all with digits | ⟨ds, es, digits, split⟩
  · rw [numeral?_whole digits (by simp), count_digits digits, literal_whole digits]
    simp
  · have front : ds ≠ [] := by
      rintro rfl
      simp only [List.nil_append, List.cons.injEq] at split
      exact ne_point_of_isDigit digit split.1
    rw [split] at all ⊢
    rcases numeral_cases es (fun e member => all e (by simp [member])) with digits' | ⟨es, fs, digits', rfl⟩
    · rw [numeral?_point digits front digits', literal_point digits digits']
      simp [count_digits digits, count_digits digits']
    · rw [numeral?_points digits digits', if_neg]
      simp [count_digits digits, count_digits digits']

end KoreanScript.Decimal
