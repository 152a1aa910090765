import Mathlib.Data.List.TakeWhile
import KoreanScript.Operator
import KoreanScript.Proofs.Grammar
import KoreanScript.Proofs.Scanning

/-!
The marks of a text: its tokens without their places. Where a text stands does
not change its marks, and a lexeme is split off a text wherever no character
behind it would go on with it.
-/
namespace KoreanScript

/-! ### Characters -/

namespace Text

theorem covers_low {low high n : Nat} {rest : List (Nat × Nat)} (inside : covers ((low, high) :: rest) n) :
    low ≤ n := by
  simp only [covers, Bool.and_eq_true, decide_eq_true_eq] at inside
  exact inside.1
/-- The points of some intervals. -/
def points (intervals : List (Nat × Nat)) : List Nat :=
  intervals.flatMap fun interval => List.range' interval.1 (interval.2 + 1 - interval.1)
theorem mem_points {intervals : List (Nat × Nat)} {n : Nat} (inside : covers intervals n) :
    n ∈ points intervals := by
  induction intervals with
  | nil => cases inside
  | cons interval rest ih =>
    simp only [covers, Bool.and_eq_true, Bool.or_eq_true, decide_eq_true_eq] at inside
    obtain ⟨above, below | later⟩ := inside
    · refine List.mem_append_left _ (List.mem_range'_1.mpr ⟨above, ?_⟩)
      omega
    · exact List.mem_append_right _ (ih later)

end Text

namespace Lexeme

/-- The characters that are lexemes or begin them, whatever stands behind them. -/
def signs : List Char :=
  ['!', '=', '<', '>', '+', '-', '*', '/', '(', ')', '\x7b', '\x7d', '[', ']', ',', ':', ';', '\'', '"']

theorem not_blank_of_continuesName {c : Char} (name : continuesName c) : Text.isBlank c = false := by
  by_contra blank
  have point : c.toNat ∈ Text.points Text.blankIntervals := Text.mem_points (by simpa [Text.isBlank] using blank)
  have apart : ∀ n ∈ Text.points Text.blankIntervals, Text.covers Text.alphabeticIntervals n = false ∧
      Text.covers Text.numericIntervals n = false ∧ n ≠ '_'.toNat := by decide +kernel
  obtain ⟨letter, digit, line⟩ := apart _ point
  simp only [continuesName, Text.isAlphabetic, Text.isNumeric, letter, digit, Bool.false_or, beq_iff_eq] at name
  exact line (congrArg Char.toNat name)
theorem continues_of_starts {c : Char} (first : startsName c) : continuesName c := by
  simp only [startsName, continuesName, Bool.or_eq_true] at first ⊢
  rcases first with letter | line
  · exact .inl (.inl letter)
  · exact .inr line
/-- No sign belongs to a word or a number. -/
theorem apart_signs {c : Char} (sign : c ∈ signs) :
    startsName c = false ∧ continuesName c = false ∧ continuesNumber c = false ∧ c.isDigit = false := by
  have apart : signs.all fun d => !(startsName d || continuesName d || continuesNumber d || d.isDigit) := by
    decide +kernel
  simpa [and_assoc] using List.all_eq_true.mp apart c sign
theorem not_digit_of_starts {c : Char} (first : startsName c) : c.isDigit = false := by
  by_contra digit
  have small : c.toNat ≤ '9'.toNat := (Char.isDigit_iff_toNat.mp (by simpa using digit)).2
  simp only [startsName, Bool.or_eq_true, beq_iff_eq] at first
  rcases first with letter | rfl
  · have large : 65 ≤ c.toNat := Text.covers_low letter
    exact absurd (Nat.le_trans large small) (by decide)
  · exact absurd small (by decide)
theorem not_blank_of_digit {c : Char} (digit : c.isDigit) : Text.isBlank c = false := by
  have bounds := Char.isDigit_iff_toNat.mp digit
  by_contra blank
  have point : c.toNat ∈ Text.points Text.blankIntervals := Text.mem_points (by simpa [Text.isBlank] using blank)
  have apart : ∀ n ∈ Text.points Text.blankIntervals, ¬ ('0'.toNat ≤ n ∧ n ≤ '9'.toNat) := by decide +kernel
  exact apart _ point bounds

end Lexeme

/-- Whether what stands in front of `rest` ends there, if it is a word or a number. -/
def Boundary (rest : List Char) : Prop :=
  ∀ c ∈ rest.head?, Lexeme.continuesName c = false ∧ Lexeme.continuesNumber c = false

theorem Boundary.nil : Boundary [] := by simp [Boundary]
theorem Boundary.sign {c : Char} (sign : c ∈ Lexeme.signs) (rest : List Char) : Boundary (c :: rest) := by
  obtain ⟨_, name, number, _⟩ := Lexeme.apart_signs sign
  rintro d ⟨⟩
  exact ⟨name, number⟩
theorem Boundary.blank {c : Char} (blank : Text.isBlank c) (rest : List Char) : Boundary (c :: rest) := by
  rintro d ⟨⟩
  constructor
  · by_contra name
    rw [Lexeme.not_blank_of_continuesName (by simpa using name)] at blank
    cases blank
  · simp only [Lexeme.continuesNumber, Bool.or_eq_false_iff, beq_eq_false_iff_ne]
    constructor
    · by_contra digit
      rw [Lexeme.not_blank_of_digit (by simpa using digit)] at blank
      cases blank
    · rintro rfl
      revert blank
      decide

/-! ### Splitting off a lexeme -/

namespace Lexeme

theorem takeWhile_of_ends {p : Char → Bool} {cs rest : List Char} (all : ∀ c ∈ cs, p c)
    (ends : ∀ c ∈ rest.head?, p c = false) : (cs ++ rest).takeWhile p = cs := by
  rw [List.takeWhile_append_of_pos all]
  cases rest with
  | nil => simp
  | cons c rest => simp [ends c rfl]
theorem first_word {opened : Bool} {c : Char} {cs rest : List Char} (starts : startsName c)
    (more : ∀ d ∈ cs, continuesName d) (ends : ∀ d ∈ rest.head?, continuesName d = false) :
    first opened c (cs ++ rest) = word (c :: cs) := by
  have other : ∀ d ∈ signs, c ≠ d := by
    rintro d sign rfl
    rw [(apart_signs sign).1] at starts
    cases starts
  have run : (cs ++ rest).takeWhile continuesName = cs := takeWhile_of_ends more ends
  simp [signs] at other
  simp [first, joinsEquals, other, not_digit_of_starts starts, starts, run]
theorem first_number {opened : Bool} {c : Char} {cs rest : List Char} (digit : c.isDigit)
    (more : ∀ d ∈ cs, continuesNumber d) (ends : ∀ d ∈ rest.head?, continuesNumber d = false) :
    first opened c (cs ++ rest) = plain .number (c :: cs) := by
  have other : ∀ d ∈ signs, c ≠ d := by
    rintro d sign rfl
    rw [(apart_signs sign).2.2.2] at digit
    cases digit
  have run : (cs ++ rest).takeWhile continuesNumber = cs := takeWhile_of_ends more ends
  simp [signs] at other
  simp [first, joinsEquals, other, digit, run]
theorem first_quoted (opened : Bool) {q : Char} (quote : q ∈ ['\'', '"']) (cs : List Char) :
    first opened q cs = quoted q cs := by
  simp only [List.mem_cons, List.not_mem_nil, or_false] at quote
  rcases quote with rfl | rfl <;> simp [first, joinsEquals]
/-- What is in front of a quote that does not occur in it. -/
theorem takeWhile_of_not_mem {q : Char} {cs rest : List Char} (apart : q ∉ cs) (ends : ∀ c ∈ rest.head?, c = q) :
    (cs ++ rest).takeWhile (· != q) = cs := by
  refine takeWhile_of_ends (fun c member => ?_) (fun c front => by simp [ends c front])
  have other : c ≠ q := fun same => apart (same ▸ member)
  simpa using other
theorem first_string (opened : Bool) {q : Char} (quote : q ∈ ['\'', '"']) {cs : List Char} (rest : List Char)
    (apart : q ∉ cs) : first opened q (cs ++ q :: rest) = ⟨.string, cs, q :: (cs ++ [q])⟩ := by
  rw [first_quoted opened quote, quoted, takeWhile_of_not_mem apart (by simp)]
  simp

end Lexeme

/-! ### The marks of a text -/

namespace Token

/-- A token without its place. -/
def mark (t : Token) : Mark := ⟨t.kind, t.value⟩
theorem is_iff_mark {t : Token} {m : Mark} : t.is m ↔ t.mark = m := by
  obtain ⟨kind, value, span⟩ := t
  obtain ⟨kind', lexeme⟩ := m
  simp [is, mark]
/-- The marks of `cs`; `opened` says that it directly follows an opening bracket. -/
def marksFrom (opened : Bool) (cs : List Char) : List Mark :=
  (scanFrom opened .origin cs).tokens.map mark

variable {opened : Bool} {c : Char} {cs rest : List Char}

theorem map_mark_scanFrom (opened : Bool) (p q : Position) (cs : List Char) :
    (scanFrom opened p cs).tokens.map mark = (scanFrom opened q cs).tokens.map mark := by
  induction size : cs.length using Nat.strongRecOn generalizing opened p q cs with
  | _ n ih =>
    subst size
    cases cs with
    | nil => simp [scanFrom]
    | cons c cs =>
      rw [scanFrom, scanFrom]
      split
      · exact ih cs.length (by simp) false _ _ cs rfl
      · simp only [List.map_cons]
        congr 1
        exact ih _ (by simp only [List.length_drop, List.length_cons]; omega) _ _ _ _ rfl
theorem marksFrom_nil (opened : Bool) : marksFrom opened [] = [] := by simp [marksFrom, scanFrom]
theorem marksFrom_blank (blank : Text.isBlank c) : marksFrom opened (c :: cs) = marksFrom false cs := by
  rw [marksFrom, scanFrom, if_pos blank]
  exact map_mark_scanFrom _ _ _ _
/-- A lexeme is split off with its mark. -/
theorem marksFrom_lexeme (cs : List Char) {l : Lexeme} (visible : Text.isBlank c = false)
    (read : Lexeme.first opened c (cs ++ rest) = l) (run : l.run = c :: cs) :
    marksFrom opened (c :: (cs ++ rest)) = ⟨l.kind, String.ofList l.value⟩ :: marksFrom l.opens rest := by
  subst read
  rw [marksFrom, scanFrom, if_neg (by simp [visible])]
  simp only [List.map_cons, run, List.length_cons, Nat.add_sub_cancel, List.drop_left]
  congr 1
  exact map_mark_scanFrom _ _ _ _
/-- Only an opening bracket is in front of what it opens. -/
theorem marksFrom_plain (cs : List Char) {l : Lexeme} (visible : Text.isBlank c = false) (other : c ≠ '[')
    (read : Lexeme.first opened c (cs ++ rest) = l) (run : l.run = c :: cs) :
    marksFrom opened (c :: (cs ++ rest)) = ⟨l.kind, String.ofList l.value⟩ :: marksFrom false rest := by
  have closed : l.opens = false := by simp [Lexeme.opens, run, other]
  rw [marksFrom_lexeme cs visible read run, closed]

/-! ### The marks of the lexemes -/

/-- The delimiters, except for those whose mark hangs on what stands around them. -/
def delimiters : List (Char × Mark) :=
  [('(', .openGroup), (')', .closeGroup), ('\x7b', .openBlock), ('\x7d', .closeBlock),
   (']', .closeList), (',', .comma), (':', .colon), (';', .semicolon)]

theorem first_delimiter (opened : Bool) {m : Mark} (member : (c, m) ∈ delimiters) (cs : List Char) :
    Lexeme.first opened c cs = .plain m.kind [c] ∧ m.lexeme = String.ofList [c] := by
  simp only [delimiters, List.mem_cons, List.not_mem_nil, or_false, Prod.mk.injEq] at member
  rcases member with ⟨rfl, rfl⟩ | ⟨rfl, rfl⟩ | ⟨rfl, rfl⟩ | ⟨rfl, rfl⟩ | ⟨rfl, rfl⟩ | ⟨rfl, rfl⟩ |
    ⟨rfl, rfl⟩ | ⟨rfl, rfl⟩
  all_goals exact ⟨by simp [Lexeme.first, Lexeme.joinsEquals]; rfl, rfl⟩
theorem marksFrom_delimiter {m : Mark} (member : (c, m) ∈ delimiters) :
    marksFrom opened (c :: rest) = m :: marksFrom false rest := by
  have sign : ∀ d ∈ delimiters, Text.isBlank d.1 = false ∧ d.1 ≠ '[' := by decide
  obtain ⟨visible, other⟩ := sign _ member
  obtain ⟨read, lexeme⟩ := first_delimiter opened member rest
  have split := marksFrom_plain [] visible other read rfl
  obtain ⟨kind, _⟩ := m
  cases lexeme
  exact split
theorem marksFrom_openGroup : marksFrom opened ('(' :: rest) = .openGroup :: marksFrom false rest :=
  marksFrom_delimiter (by decide)
theorem marksFrom_closeGroup : marksFrom opened (')' :: rest) = .closeGroup :: marksFrom false rest :=
  marksFrom_delimiter (by decide)
theorem marksFrom_openBlock : marksFrom opened ('\x7b' :: rest) = .openBlock :: marksFrom false rest :=
  marksFrom_delimiter (by decide)
theorem marksFrom_closeBlock : marksFrom opened ('\x7d' :: rest) = .closeBlock :: marksFrom false rest :=
  marksFrom_delimiter (by decide)
theorem marksFrom_comma : marksFrom opened (',' :: rest) = .comma :: marksFrom false rest :=
  marksFrom_delimiter (by decide)
theorem marksFrom_colon : marksFrom opened (':' :: rest) = .colon :: marksFrom false rest :=
  marksFrom_delimiter (by decide)
theorem marksFrom_openList : marksFrom opened ('[' :: rest) = .openList :: marksFrom true rest :=
  marksFrom_lexeme [] (l := .plain .listDelimiter ['[']) (by decide)
    (by simp [Lexeme.first, Lexeme.joinsEquals]) rfl
/-- An exclamation mark directly behind an opening bracket makes a table of the list. -/
theorem marksFrom_tableMarker (other : rest.head? ≠ some '=') :
    marksFrom true ('!' :: rest) = .tableMarker :: marksFrom false rest :=
  marksFrom_plain [] (l := .plain .listDelimiter ['!']) (by decide) (by decide)
    (by simp [Lexeme.first, other]) rfl
theorem operator_signs {c : Char} (member : c ∈ Lexeme.joinsEquals ++ ['+', '-', '*', '/']) :
    Text.isBlank c = false ∧ c ≠ '[' := by
  have apart : (Lexeme.joinsEquals ++ ['+', '-', '*', '/']).all fun d => !Text.isBlank d && d != '[' := by
    decide
  simpa using List.all_eq_true.mp apart c member
theorem marksFrom_joined (joins : c ∈ Lexeme.joinsEquals) :
    marksFrom false (c :: '=' :: rest) = ⟨.operator, String.ofList [c, '=']⟩ :: marksFrom false rest := by
  obtain ⟨visible, other⟩ := operator_signs (List.mem_append_left _ joins)
  exact marksFrom_plain ['='] (l := .plain .operator [c, '=']) visible other
    (by simp [Lexeme.first, joins]) rfl
/-- The operators of one character, in front of no equals sign. -/
theorem marksFrom_single (member : c ∈ Lexeme.joinsEquals ++ ['+', '-', '*', '/'])
    (apart : rest.head? ≠ some '=') :
    marksFrom false (c :: rest) = ⟨.operator, String.ofList [c]⟩ :: marksFrom false rest := by
  obtain ⟨visible, other⟩ := operator_signs member
  have read : Lexeme.first false c rest = .plain .operator [c] := by
    unfold Lexeme.first
    rw [if_neg (by simp), if_neg (by simp [apart]), if_pos (List.mem_append.mp member)]
  exact marksFrom_plain [] visible other read rfl
theorem marksFrom_prefix (op : PrefixOperator) (apart : rest.head? ≠ some '=') :
    marksFrom false (op.lexeme.toList ++ rest) = .ofPrefix op :: marksFrom false rest := by
  cases op
  all_goals exact marksFrom_single (by decide) apart
theorem marksFrom_infix (op : InfixOperator) (apart : rest.head? ≠ some '=') :
    marksFrom false (op.lexeme.toList ++ rest) = .ofInfix op :: marksFrom false rest := by
  cases op with
  | equal | unequal | atMost | atLeast => exact marksFrom_joined (by decide)
  | plus | minus | times | divided | less | greater => exact marksFrom_single (by decide) apart
theorem marksFrom_assignment (apart : rest.head? ≠ some '=') :
    marksFrom false ('=' :: rest) = .assignment :: marksFrom false rest :=
  marksFrom_single (by decide) apart
theorem marksFrom_word (starts : Lexeme.startsName c) (more : ∀ d ∈ cs, Lexeme.continuesName d)
    (ends : Boundary rest) :
    marksFrom opened (c :: (cs ++ rest)) =
      ⟨(Lexeme.word (c :: cs)).kind, String.ofList (c :: cs)⟩ :: marksFrom false rest := by
  have other : c ≠ '[' := by
    rintro rfl
    revert starts
    decide
  have visible := Lexeme.not_blank_of_continuesName (Lexeme.continues_of_starts starts)
  rw [marksFrom_plain cs visible other (Lexeme.first_word starts more fun d front => (ends d front).1) (Lexeme.run_word _)]
  congr 2
  unfold Lexeme.word
  split_ifs <;> rfl
theorem marksFrom_name {s : String} (name : IsName s) (ends : Boundary rest) :
    marksFrom opened (s.toList ++ rest) = ⟨.identifier, s⟩ :: marksFrom false rest := by
  obtain ⟨c, cs, split, starts, more⟩ := name.starts
  have whole : String.ofList (c :: cs) = s := by rw [← split, String.ofList_toList]
  have kind : (Lexeme.word (c :: cs)).kind = .identifier := by
    rw [Lexeme.word, whole, if_neg name.unreserved.1, if_neg name.unreserved.2]
    rfl
  rw [split, List.cons_append, marksFrom_word starts more ends, kind, whole]
theorem marksFrom_keyword {s : String} (keyword : s ∈ Word.keywords) (ends : Boundary rest) :
    marksFrom opened (s.toList ++ rest) = ⟨.keyword, s⟩ :: marksFrom false rest := by
  simp only [Word.keywords, List.mem_cons, List.not_mem_nil, or_false] at keyword
  rcases keyword with rfl | rfl | rfl | rfl
  all_goals exact marksFrom_word (by decide +kernel) (List.all_eq_true.mp (by decide +kernel)) ends
theorem marksFrom_boolean (b : Bool) (ends : Boundary rest) :
    marksFrom opened ((Word.ofBool b).toList ++ rest) = ⟨.boolean, Word.ofBool b⟩ :: marksFrom false rest := by
  cases b
  all_goals exact marksFrom_word (by decide +kernel) (List.all_eq_true.mp (by decide +kernel)) ends
theorem marksFrom_number (digit : c.isDigit) (more : ∀ d ∈ cs, Lexeme.continuesNumber d)
    (ends : Boundary rest) :
    marksFrom opened (c :: (cs ++ rest)) = ⟨.number, String.ofList (c :: cs)⟩ :: marksFrom false rest := by
  have other : c ≠ '[' := by
    rintro rfl
    revert digit
    decide
  exact marksFrom_plain cs (Lexeme.not_blank_of_digit digit) other (Lexeme.first_number digit more fun d front => (ends d front).2) rfl
theorem marksFrom_string {s : String} (apart : '\'' ∉ s.toList) :
    marksFrom opened ('\'' :: (s.toList ++ '\'' :: rest)) = ⟨.string, s⟩ :: marksFrom false rest := by
  have read := Lexeme.first_string opened (q := '\'') (by decide) rest apart
  rw [List.append_cons] at read ⊢
  have split := marksFrom_plain _ (by decide) (by decide) read rfl
  rwa [String.ofList_toList] at split

end Token
end KoreanScript
