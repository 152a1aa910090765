import Mathlib.Data.List.TakeWhile
import KoreanScript.Token.Scan

/-!
What the tokens of a text look like: the values that go with the kind of a token.
-/
namespace KoreanScript

/-- A word that is read as a name. -/
structure IsName (s : String) : Prop where
  starts : ∃ c cs, s.toList = c :: cs ∧ Lexeme.startsName c ∧ ∀ d ∈ cs, Lexeme.continuesName d
  unreserved : s ∉ Word.keywords ∧ s ∉ Word.booleans

/-- What a lexeme of some kind denotes. -/
def TokenKind.Denotes : TokenKind → String → Prop
  | .identifier, s => IsName s
  | .number, s => ∃ c cs, s = String.ofList (c :: cs) ∧ c.isDigit ∧ ∀ d ∈ cs, Lexeme.continuesNumber d
  | .finish, _ => False
  | _, _ => True

namespace Lexeme

theorem word_denotes {c : Char} {cs : List Char} (first : startsName c)
    (more : ∀ d ∈ cs, continuesName d) :
    (word (c :: cs)).kind.Denotes (String.ofList (word (c :: cs)).value) := by
  unfold word
  split
  · trivial
  split
  · trivial
  · next keyword boolean =>
    exact ⟨⟨c, cs, String.toList_ofList, first, more⟩, keyword, boolean⟩
theorem first_denotes (opened : Bool) (c : Char) (cs : List Char) :
    (first opened c cs).kind.Denotes (String.ofList (first opened c cs).value) := by
  unfold first
  iterate 7 split; · trivial
  split
  · unfold quoted
    simp only
    split <;> trivial
  split
  · next digit => exact ⟨c, _, rfl, digit, fun d member => List.mem_takeWhile_imp member⟩
  split
  · next letter => exact word_denotes letter fun d member => List.mem_takeWhile_imp member
  · trivial

end Lexeme

namespace Token

theorem denotes_scanFrom (opened : Bool) (p : Position) (cs : List Char) :
    ∀ t ∈ (scanFrom opened p cs).tokens, t.kind.Denotes t.value := by
  induction size : cs.length using Nat.strongRecOn generalizing opened p cs with
  | _ n ih =>
    subst size
    cases cs with
    | nil => simp [scanFrom]
    | cons c cs =>
      rw [scanFrom]
      split
      · exact ih cs.length (by simp) false _ cs rfl
      · intro t member
        rcases List.mem_cons.mp member with rfl | later
        · exact Lexeme.first_denotes opened c cs
        · exact ih _ (by simp only [List.length_drop, List.length_cons]; omega) _ _ _ rfl t later
/-- The value of every token of a text goes with its kind. -/
theorem denotes_scan (source : String) : ∀ t ∈ (scan source).tokens, t.kind.Denotes t.value :=
  denotes_scanFrom false .origin source.toList

end Token
end KoreanScript
