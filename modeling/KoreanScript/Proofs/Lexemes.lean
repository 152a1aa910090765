import KoreanScript.Proofs.Levels
import KoreanScript.Proofs.Marks

/-!
The lexemes of the language. A lexeme has the spelling of its kind, and the text
behind it does not go on with it. That is all there is to a lexeme: what the scanner
splits off a text fits in front of the rest, and what fits is what it splits off.
-/
namespace KoreanScript

namespace TokenKind

/-- A letter or a line, and letters, digits and lines behind it. -/
def IsWord (cs : List Char) : Prop :=
  ∃ c ds, cs = c :: ds ∧ Lexeme.startsName c ∧ ∀ d ∈ ds, Lexeme.continuesName d

/-- The texts of a kind whose tokens show all of their text. -/
def Admits : TokenKind → List Char → Prop
  | operator, cs => (∃ c ∈ Lexeme.joinsEquals ++ ['+', '-', '*', '/'], cs = [c]) ∨
      ∃ c ∈ Lexeme.joinsEquals, cs = [c, '=']
  | identifier, cs => IsWord cs ∧ String.ofList cs ∉ Word.keywords ∧ String.ofList cs ∉ Word.booleans
  | keyword, cs => IsWord cs ∧ String.ofList cs ∈ Word.keywords
  | boolean, cs => IsWord cs ∧ String.ofList cs ∈ Word.booleans
  | number, cs => ∃ c ds, cs = c :: ds ∧ c.isDigit ∧ ∀ d ∈ ds, Lexeme.continuesNumber d
  | groupDelimiter, cs => ∃ c ∈ ['(', ')'], cs = [c]
  | blockDelimiter, cs => ∃ c ∈ ['\x7b', '\x7d'], cs = [c]
  | listDelimiter, cs => ∃ c ∈ ['[', ']', '!'], cs = [c]
  | separator, cs => ∃ c ∈ [',', ':', ';'], cs = [c]
  | illegal, cs => ∃ c, cs = [c] ∧ Text.isBlank c = false ∧ c ∉ Lexeme.signs ∧ c.isDigit = false ∧
      Lexeme.startsName c = false
  | string, _ | illegalString, _ | finish, _ => False
/-- Whether a token of a kind and a value may have the text `run`. A string has its value between
    two quotes; one that is never closed has no second quote. -/
def Spells (k : TokenKind) (value run : List Char) : Prop :=
  match k with
  | string => ∃ q ∈ ['\'', '"'], q ∉ value ∧ run = q :: (value ++ [q])
  | illegalString => ∃ q ∈ ['\'', '"'], q ∉ value ∧ run = q :: value
  | k => run = value ∧ k.Admits value
/-- Whether the text of a token ends in front of `rest`: the longest match takes a number, a word
    or an operator as far as it goes, and a string that is never closed up to the end. -/
def Ends (k : TokenKind) (run rest : List Char) : Prop :=
  match k with
  | number => ∀ c ∈ rest.head?, Lexeme.continuesNumber c = false
  | identifier | keyword | boolean => ∀ c ∈ rest.head?, Lexeme.continuesName c = false
  | illegalString => rest = []
  | _ => (∃ c ∈ Lexeme.joinsEquals, run = [c]) → rest.head? ≠ some '='

end TokenKind

namespace Lexeme

/-- Whether a lexeme fits in front of `rest`, directly behind an opening bracket if `opened`. -/
structure Fits (opened : Bool) (l : Lexeme) (rest : List Char) : Prop where
  spells : l.kind.Spells l.value l.run
  ends : l.kind.Ends l.run rest
  /-- Behind a bracket, an exclamation mark is the marker of a table. -/
  marker : l.run = ['!'] → (l.kind = .listDelimiter ↔ opened = true)

/-! ### What the scanner splits off fits -/

/-- Behind the longest run stands nothing that would go on with it. -/
theorem head_drop_takeWhile (p : Char → Bool) (cs : List Char) :
    ∀ c ∈ (cs.drop (cs.takeWhile p).length).head?, p c = false := by
  have split : cs.drop (cs.takeWhile p).length = cs.dropWhile p := by
    have whole : (cs.takeWhile p ++ cs.dropWhile p).drop (cs.takeWhile p).length = cs.dropWhile p := List.drop_left
    rwa [List.takeWhile_append_dropWhile] at whole
  intro c front
  have stopped := List.head?_dropWhile_not p cs
  rw [← split, Option.mem_def.mp front] at stopped
  exact stopped
theorem word_fits (opened : Bool) {c : Char} {cs rest : List Char} (starts : startsName c)
    (more : ∀ d ∈ cs, continuesName d) (ends : ∀ d ∈ rest.head?, continuesName d = false) :
    (word (c :: cs)).Fits opened rest := by
  have word' : TokenKind.IsWord (c :: cs) := ⟨c, cs, rfl, starts, more⟩
  have other : c :: cs ≠ ['!'] := by
    intro same
    cases same
    revert starts
    decide +kernel
  unfold word
  split
  · next keyword => exact ⟨⟨rfl, word', keyword⟩, ends, fun same => absurd same other⟩
  split
  · next boolean => exact ⟨⟨rfl, word', boolean⟩, ends, fun same => absurd same other⟩
  · next keyword boolean => exact ⟨⟨rfl, word', keyword, boolean⟩, ends, fun same => absurd same other⟩
theorem not_mem_takeWhile_ne (q : Char) (cs : List Char) : q ∉ cs.takeWhile (· != q) := by
  intro inside
  have other := List.mem_takeWhile_imp inside
  simp at other
theorem quoted_fits (opened : Bool) {q : Char} (quote : q ∈ ['\'', '"']) (cs : List Char) :
    (quoted q cs).Fits opened (cs.drop ((quoted q cs).run.length - 1)) := by
  have other : ∀ run : List Char, q :: run ≠ ['!'] := by
    rintro run same
    cases same
    revert quote
    decide
  have apart : q ∉ Lexeme.joinsEquals := by
    simp only [List.mem_cons, List.not_mem_nil, or_false] at quote
    rcases quote with rfl | rfl <;> decide
  unfold quoted
  split
  · refine ⟨⟨q, quote, not_mem_takeWhile_ne q cs, rfl⟩, ?_, fun same => absurd same (other _)⟩
    rintro ⟨c, joins, same⟩
    exact absurd ((List.cons.inj same).1 ▸ joins) apart
  · next unclosed =>
    refine ⟨⟨q, quote, not_mem_takeWhile_ne q cs, rfl⟩, ?_, fun same => absurd same (other _)⟩
    have all : cs.takeWhile (· != q) = cs := by
      refine List.takeWhile_eq_self_iff.mpr fun c inside => ?_
      simpa using fun same : c = q => unclosed (same ▸ inside)
    simp [TokenKind.Ends, all]
/-- A lexeme of one character that nothing goes on with. -/
theorem plain_fits (opened : Bool) {k : TokenKind} {c : Char} (rest : List Char) (admits : k.Admits [c])
    (whole : k ∉ [TokenKind.number, .identifier, .keyword, .boolean])
    (apart : c ∈ joinsEquals → rest.head? ≠ some '=') (marker : c = '!' → (k = .listDelimiter ↔ opened = true)) :
    (plain k [c]).Fits opened rest := by
  have ends : (∃ d ∈ joinsEquals, [c] = [d]) → rest.head? ≠ some '=' := by
    rintro ⟨d, joins, same⟩
    cases same
    exact apart joins
  refine ⟨?_, ?_, fun same => marker (by simpa [plain] using same)⟩
  · cases k <;> first | exact ⟨rfl, admits⟩ | exact absurd admits id
  · cases k <;> first | exact ends | exact absurd (by decide) whole | exact absurd admits id
/-- The lexeme at the front of a text fits in front of what is behind it. -/
theorem first_fits (opened : Bool) {c : Char} (visible : Text.isBlank c = false) (cs : List Char) :
    (first opened c cs).Fits opened (cs.drop ((first opened c cs).run.length - 1)) := by
  unfold first
  split
  · next marks =>
    obtain ⟨rfl, opened, apart⟩ := marks
    exact plain_fits _ cs ⟨'!', by simp, rfl⟩ (by decide) (fun _ => apart) fun _ => by simp [opened]
  next unmarked =>
  split
  · next joined =>
    exact ⟨⟨rfl, .inr ⟨c, joined.1, rfl⟩⟩, fun single => by simp [plain] at single, fun same => by simp [plain] at same⟩
  next apart =>
  split
  · next single =>
    refine plain_fits _ cs (.inl ⟨c, List.mem_append.mpr single, rfl⟩) (by decide)
      (fun joins equal => apart ⟨joins, equal⟩) ?_
    rintro rfl
    have closed : ¬ opened = true := fun here => by
      refine unmarked ⟨rfl, here, fun equal => apart ⟨by decide, equal⟩⟩
    simp [closed]
  next single =>
  rw [not_or] at single
  have unjoined : c ∈ joinsEquals → cs.head? ≠ some '=' := fun joins => absurd joins single.1
  have other : c ≠ '!' := by
    rintro rfl
    exact single.1 (by decide)
  split
  · next member => exact plain_fits _ cs ⟨c, member, rfl⟩ (by decide) unjoined fun same => absurd same other
  split
  · next member => exact plain_fits _ cs ⟨c, member, rfl⟩ (by decide) unjoined fun same => absurd same other
  split
  · next member =>
    exact plain_fits _ cs ⟨c, List.mem_append_left ['!'] member, rfl⟩ (by decide) unjoined
      fun same => absurd same other
  split
  · next member => exact plain_fits _ cs ⟨c, member, rfl⟩ (by decide) unjoined fun same => absurd same other
  split
  · next quote => exact quoted_fits opened quote cs
  split
  · next digit =>
    have more : ∀ d ∈ cs.takeWhile continuesNumber, continuesNumber d := fun d => List.mem_takeWhile_imp
    refine ⟨⟨rfl, c, _, rfl, digit, more⟩, ?_, ?_⟩
    · simpa [TokenKind.Ends, plain] using head_drop_takeWhile continuesNumber cs
    · exact fun same => absurd (List.cons.inj same).1 other
  split
  · next starts =>
    have more : ∀ d ∈ cs.takeWhile continuesName, continuesName d := fun d => List.mem_takeWhile_imp
    simpa [run_word] using word_fits opened starts more (head_drop_takeWhile continuesName cs)
  · next groups blocks lists separators quotes digit starts =>
    refine plain_fits _ cs ⟨c, rfl, visible, ?_, by simpa using digit, by simpa using starts⟩ (by decide) unjoined
      fun same => absurd same other
    simp only [joinsEquals, List.mem_cons, List.not_mem_nil, or_false, not_or] at single groups blocks lists separators quotes
    simp [signs, single, groups, blocks, lists, separators, quotes]

/-! ### What fits is split off -/

theorem not_blank_of_quote {q : Char} (quote : q ∈ ['\'', '"']) : Text.isBlank q = false := by
  simp only [List.mem_cons, List.not_mem_nil, or_false] at quote
  rcases quote with rfl | rfl
  · decide
  · decide
theorem first_of_word {opened : Bool} {k : TokenKind} {cs rest : List Char} (isWord : TokenKind.IsWord cs)
    (kind : word cs = plain k cs) (ends : ∀ c ∈ rest.head?, continuesName c = false) :
    ∃ c ds, cs = c :: ds ∧ Text.isBlank c = false ∧ first opened c (ds ++ rest) = ⟨k, cs, cs⟩ := by
  obtain ⟨c, ds, rfl, starts, more⟩ := isWord
  exact ⟨c, ds, rfl, not_blank_of_continuesName (continues_of_starts starts),
    (first_word starts more ends).trans kind⟩
theorem first_of_operator {opened : Bool} {cs rest : List Char} (admits : TokenKind.operator.Admits cs)
    (ends : (∃ c ∈ joinsEquals, cs = [c]) → rest.head? ≠ some '=')
    (marker : cs = ['!'] → (TokenKind.operator = .listDelimiter ↔ opened = true)) :
    ∃ c ds, cs = c :: ds ∧ Text.isBlank c = false ∧ first opened c (ds ++ rest) = ⟨.operator, cs, cs⟩ := by
  rcases admits with ⟨c, member, rfl⟩ | ⟨c, joins, rfl⟩
  · refine ⟨c, [], rfl, (Token.operator_signs member).1, ?_⟩
    have unmarked : ¬ (c = '!' ∧ opened = true ∧ rest.head? ≠ some '=') := by
      rintro ⟨rfl, here, _⟩
      exact absurd ((marker rfl).mpr here) (by decide)
    have apart : ¬ (c ∈ joinsEquals ∧ rest.head? = some '=') := fun joined => ends ⟨c, joined.1, rfl⟩ joined.2
    rw [List.nil_append, first, if_neg unmarked, if_neg apart, if_pos (List.mem_append.mp member)]
    rfl
  · refine ⟨c, ['='], rfl, (Token.operator_signs (List.mem_append_left _ joins)).1, ?_⟩
    rw [List.singleton_append, first, if_neg (by simp), if_pos ⟨joins, rfl⟩]
    rfl
theorem first_of_listDelimiter {opened : Bool} {cs rest : List Char} (admits : TokenKind.listDelimiter.Admits cs)
    (ends : (∃ c ∈ joinsEquals, cs = [c]) → rest.head? ≠ some '=')
    (marker : cs = ['!'] → (TokenKind.listDelimiter = .listDelimiter ↔ opened = true)) :
    ∃ c ds, cs = c :: ds ∧ Text.isBlank c = false ∧ first opened c (ds ++ rest) = ⟨.listDelimiter, cs, cs⟩ := by
  obtain ⟨c, member, rfl⟩ := admits
  simp only [List.mem_cons, List.not_mem_nil, or_false] at member
  rcases member with rfl | rfl | rfl
  · exact ⟨_, [], rfl, by decide, by simp [first, joinsEquals, plain]⟩
  · exact ⟨_, [], rfl, by decide, by simp [first, joinsEquals, plain]⟩
  · have here : opened = true := (marker rfl).mp rfl
    have apart : rest.head? ≠ some '=' := ends ⟨'!', by decide, rfl⟩
    exact ⟨_, [], rfl, by decide, by simp [first, here, apart, plain]⟩
theorem first_of_illegal {opened : Bool} {cs rest : List Char} (admits : TokenKind.illegal.Admits cs) :
    ∃ c ds, cs = c :: ds ∧ Text.isBlank c = false ∧ first opened c (ds ++ rest) = ⟨.illegal, cs, cs⟩ := by
  obtain ⟨c, rfl, visible, sign, digit, starts⟩ := admits
  refine ⟨c, [], rfl, visible, ?_⟩
  simp only [signs, List.mem_cons, List.not_mem_nil, or_false, not_or] at sign
  simp [first, joinsEquals, sign, digit, starts, plain]
/-- What fits in front of the rest of a text is the lexeme that is split off it. -/
theorem Fits.first_eq {opened : Bool} {l : Lexeme} {rest : List Char} (fits : l.Fits opened rest) :
    ∃ c cs, l.run = c :: cs ∧ Text.isBlank c = false ∧ first opened c (cs ++ rest) = l := by
  obtain ⟨kind, value, run⟩ := l
  obtain ⟨spells, ends, marker⟩ := fits
  simp only at spells ends marker ⊢
  cases kind with
  | operator =>
    obtain ⟨rfl, admits⟩ := spells
    exact first_of_operator admits ends marker
  | listDelimiter =>
    obtain ⟨rfl, admits⟩ := spells
    exact first_of_listDelimiter admits ends marker
  | illegal =>
    obtain ⟨rfl, admits⟩ := spells
    exact first_of_illegal admits
  | identifier =>
    obtain ⟨rfl, isWord, keyword, boolean⟩ := spells
    exact first_of_word isWord (by rw [word, if_neg keyword, if_neg boolean]) ends
  | keyword =>
    obtain ⟨rfl, isWord, keyword⟩ := spells
    exact first_of_word isWord (by rw [word, if_pos keyword]) ends
  | boolean =>
    obtain ⟨rfl, isWord, boolean⟩ := spells
    have unreserved : String.ofList run ∉ Word.keywords := by
      have apart : ∀ s ∈ Word.booleans, s ∉ Word.keywords := by decide
      exact apart _ boolean
    exact first_of_word isWord (by rw [word, if_neg unreserved, if_pos boolean]) ends
  | number =>
    obtain ⟨rfl, c, cs, rfl, digit, more⟩ := spells
    exact ⟨c, cs, rfl, not_blank_of_digit digit, first_number digit more ends⟩
  | groupDelimiter =>
    obtain ⟨rfl, c, member, rfl⟩ := spells
    simp only [List.mem_cons, List.not_mem_nil, or_false] at member
    rcases member with rfl | rfl <;> exact ⟨_, [], rfl, by decide, by simp [first, joinsEquals, plain]⟩
  | blockDelimiter =>
    obtain ⟨rfl, c, member, rfl⟩ := spells
    simp only [List.mem_cons, List.not_mem_nil, or_false] at member
    rcases member with rfl | rfl <;> exact ⟨_, [], rfl, by decide, by simp [first, joinsEquals, plain]⟩
  | separator =>
    obtain ⟨rfl, c, member, rfl⟩ := spells
    simp only [List.mem_cons, List.not_mem_nil, or_false] at member
    rcases member with rfl | rfl | rfl <;> exact ⟨_, [], rfl, by decide, by simp [first, joinsEquals, plain]⟩
  | string =>
    obtain ⟨q, quote, apart, rfl⟩ := spells
    refine ⟨q, value ++ [q], rfl, not_blank_of_quote quote, ?_⟩
    rw [List.append_assoc]
    exact first_string opened quote rest apart
  | illegalString =>
    obtain ⟨q, quote, apart, rfl⟩ := spells
    obtain rfl : rest = [] := ends
    have whole : (value ++ []).takeWhile (· != q) = value := takeWhile_of_not_mem apart (by simp)
    rw [List.append_nil] at whole
    refine ⟨q, value, rfl, not_blank_of_quote quote, ?_⟩
    rw [List.append_nil, first_quoted opened quote, quoted, whole, if_neg apart]
  | finish => exact absurd spells.2 id

/-! ### Brackets and exclamation marks -/

section
variable {opened : Bool} {l : Lexeme} {rest : List Char} (fits : l.Fits opened rest) (p : Position)
include fits

/-- Only the token of an opening bracket opens. -/
theorem Fits.opens_eq : l.opens = (l.toToken p).is .openList := by
  rw [Bool.eq_iff_iff, Token.is_iff, opens, beq_iff_eq]
  constructor
  · intro bracket
    obtain ⟨c, cs, run, _, first⟩ := fits.first_eq
    rw [bracket] at run
    cases run
    rw [← first]
    exact ⟨by simp [toToken, Lexeme.first, joinsEquals, plain, Mark.openList],
      by simp [toToken, Lexeme.first, joinsEquals, plain, Mark.openList]⟩
  · rintro ⟨kind, value⟩
    have spells := fits.spells
    rw [show l.kind = .listDelimiter from kind] at spells
    rw [spells.1, ← String.toList_ofList (l := l.value), show String.ofList l.value = "[" from value]
    rfl
/-- An exclamation mark is the marker of a table if it directly follows an opening bracket and no
    equals sign directly follows it. -/
theorem Fits.is_tableMarker_iff (bang : l.run.head? = some '!') :
    (l.toToken p).is .tableMarker ↔ opened = true ∧ (l.run.tail ++ rest).head? ≠ some '=' := by
  obtain ⟨c, cs, run, _, first⟩ := fits.first_eq
  rw [run] at bang ⊢
  cases bang
  rw [List.tail_cons, ← first, Token.is_iff]
  unfold Lexeme.first
  split
  · next marked => exact ⟨fun _ => marked.2, fun _ => ⟨rfl, rfl⟩⟩
  next unmarked =>
  have other : ¬ (opened = true ∧ (cs ++ rest).head? ≠ some '=') := fun here => unmarked ⟨rfl, here⟩
  split
  · exact iff_of_false (fun found => by cases found.1) other
  · rw [if_pos (.inl (by decide))]
    exact iff_of_false (fun found => by cases found.1) other

end
end Lexeme
end KoreanScript
