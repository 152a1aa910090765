import KoreanScript.Text.Blank
import KoreanScript.Text.Alphabetic
import KoreanScript.Text.Numeric
import KoreanScript.Token

/-!
From a text to its tokens. A lexeme is the longest run that the characters at
the front of the text allow; its kind hangs on its first characters and, for the
marker of a table, on whether it directly follows an opening bracket.
-/
namespace KoreanScript

/-- A token before it is given a place: its kind, its value and all its characters. -/
structure Lexeme where
  kind : TokenKind
  value : List Char
  run : List Char

namespace Lexeme

/-- Whether a character begins a name. -/
def startsName (c : Char) : Bool := Text.isAlphabetic c || c == '_'
/-- Whether a character goes on with a name. -/
def continuesName (c : Char) : Bool := Text.isAlphabetic c || Text.isNumeric c || c == '_'
/-- Whether a character goes on with a number. -/
def continuesNumber (c : Char) : Bool := c.isDigit || c == '.'
/-- The operators that an equals sign directly behind them joins. -/
def joinsEquals : List Char := ['=', '!', '<', '>']

/-- A lexeme whose value is all of it. -/
def plain (kind : TokenKind) (run : List Char) : Lexeme := ⟨kind, run, run⟩
/-- A word: a keyword, a truth value or a name. -/
def word (run : List Char) : Lexeme :=
  if String.ofList run ∈ Word.keywords then plain .keyword run
  else if String.ofList run ∈ Word.booleans then plain .boolean run
  else plain .identifier run
/-- A string up to the quote that opened it; without one it is illegal and takes all the rest. -/
def quoted (quote : Char) (cs : List Char) : Lexeme :=
  let value := cs.takeWhile (· != quote)
  if quote ∈ cs then ⟨.string, value, quote :: (value ++ [quote])⟩
  else ⟨.illegalString, value, quote :: value⟩
/-- The lexeme at the front of `c :: cs`, where `c` is not blank; `opened` says that it
    directly follows an opening bracket. -/
def first (opened : Bool) (c : Char) (cs : List Char) : Lexeme :=
  if c = '!' ∧ opened ∧ cs.head? ≠ some '=' then plain .listDelimiter [c]
  else if c ∈ joinsEquals ∧ cs.head? = some '=' then plain .operator [c, '=']
  else if c ∈ joinsEquals ∨ c ∈ ['+', '-', '*', '/'] then plain .operator [c]
  else if c ∈ ['(', ')'] then plain .groupDelimiter [c]
  else if c ∈ ['\x7b', '\x7d'] then plain .blockDelimiter [c]
  else if c ∈ ['[', ']'] then plain .listDelimiter [c]
  else if c ∈ [',', ':', ';'] then plain .separator [c]
  else if c ∈ ['\'', '"'] then quoted c cs
  else if c.isDigit then plain .number (c :: cs.takeWhile continuesNumber)
  else if startsName c then word (c :: cs.takeWhile continuesName)
  else plain .illegal [c]
theorem run_word (cs : List Char) : (word cs).run = cs := by
  unfold word
  split
  · rfl
  · split <;> rfl
private theorem takeWhile_append_drop (p : Char → Bool) (cs : List Char) :
    cs.takeWhile p ++ cs.drop (cs.takeWhile p).length = cs := by
  induction cs with
  | nil => rfl
  | cons c cs ih =>
    rw [List.takeWhile_cons]
    split
    · rw [List.cons_append, List.length_cons, List.drop_succ_cons, ih]
    · rfl
private theorem takeWhile_eq_self {p : Char → Bool} {cs : List Char} (all : ∀ c ∈ cs, p c = true) :
    cs.takeWhile p = cs := by
  induction cs with
  | nil => rfl
  | cons c cs ih =>
    rw [List.takeWhile_cons, if_pos (all c (by simp)), ih fun d inside => all d (by simp [inside])]
private theorem takeWhile_quote (quote : Char) (cs : List Char) (closed : quote ∈ cs) :
    cs.takeWhile (· != quote) ++ quote :: cs.drop ((cs.takeWhile (· != quote)).length + 1) = cs := by
  induction cs with
  | nil => simp at closed
  | cons c cs ih =>
    by_cases same : c = quote
    · simp [same]
    · have rest : quote ∈ cs := by simpa [Ne.symm same] using closed
      rw [List.takeWhile_cons, if_pos (by simp [same])]
      rw [List.cons_append, List.length_cons, List.drop_succ_cons, ih rest]
/-- Nothing is lost between a lexeme and what stands behind it. -/
theorem run_first_append (opened : Bool) (c : Char) (cs : List Char) :
    (first opened c cs).run ++ cs.drop ((first opened c cs).run.length - 1) = c :: cs := by
  unfold first
  split
  · rfl
  split
  · next joined =>
    cases cs with
    | nil => simp at joined
    | cons d cs => simp only [List.head?_cons, Option.some.injEq] at joined; rw [joined.2]; rfl
  iterate 5 split; · rfl
  split
  · simp only [quoted]
    split
    · next closed => simpa using takeWhile_quote c cs closed
    · next unclosed =>
      have all : cs.takeWhile (· != c) = cs := takeWhile_eq_self fun d inside => by
        have other : d ≠ c := fun same => unclosed (same ▸ inside)
        simpa using other
      simp [all]
  split
  · simpa [plain] using takeWhile_append_drop continuesNumber cs
  split
  · rw [run_word]
    simpa using takeWhile_append_drop continuesName cs
  · rfl
/-- The token of a lexeme whose first character stands at `p`. -/
def toToken (l : Lexeme) (p : Position) : Token := ⟨l.kind, String.ofList l.value, .ofRun p l.run⟩
/-- Whether what directly follows the lexeme follows an opening bracket. -/
def opens (l : Lexeme) : Bool := l.run == ['[']

end Lexeme

/-- The tokens of a text and the place of its end. -/
structure Scanned where
  tokens : List Token
  finish : Span

namespace Token

/-- The tokens of `cs`, which begins at `p`; `opened` says that it directly follows an
    opening bracket. -/
def scanFrom (opened : Bool) (p : Position) : List Char → Scanned
  | [] => ⟨[], ⟨p, p⟩⟩
  | c :: cs =>
    if Text.isBlank c then scanFrom false (p.after c) cs
    else
      let l := Lexeme.first opened c cs
      let tail := scanFrom l.opens (p.afterAll l.run) (cs.drop (l.run.length - 1))
      ⟨l.toToken p :: tail.tokens, tail.finish⟩
termination_by cs => cs.length
decreasing_by all_goals simp; try omega
/-- The tokens of a text. -/
def scan (source : String) : Scanned := scanFrom false .origin source.toList

end Token
end KoreanScript
