import KoreanScript.Proofs.GrammarComplete
import KoreanScript.Proofs.GrammarSound
import KoreanScript.Proofs.Numerals
import KoreanScript.Proofs.Scanning

/-!
The parser recognizes the grammar: a text is read as a program exactly if the
grammar derives that program from its tokens.
-/
namespace KoreanScript.Program
open Grammar

/-- Tokens without an end token among them are read as the program they derive. -/
theorem ofTokens_iff_derives {ts : List Token} {stop : Span} (endless : ∀ t ∈ ts, t.kind ≠ .finish)
    (p : Program) : ofTokens ts stop = .ok p ↔ OfProgram ts stop p := by
  constructor
  · intro read
    obtain ⟨⟨ss, finish⟩, statements, built⟩ := bind_eq_ok.mp read
    cases built
    obtain ⟨used, rest, rfl, derived, ⟨rfl, rfl⟩ | ⟨t, us, rfl, kind, _⟩⟩ := statements_sound statements
    · rw [List.append_nil]
      exact ⟨derived, rfl⟩
    · exact absurd kind (endless t (by simp))
  · rintro ⟨derived, span⟩
    refine bind_eq_ok.mpr ⟨_, derived.read_all, ?_⟩
    simp only [← span]
/-- What a number token denotes: digits with at most one point among them. -/
theorem read?_of_number {source : String} {t : Token} (inside : t ∈ (Token.scan source).tokens)
    (kind : t.kind = .number) :
    Decimal.read? t.value =
      if t.value.toList.count '.' ≤ 1 then some (Decimal.literal t.value.toList) else none := by
  have denotes := Token.denotes_scan source t inside
  rw [kind] at denotes
  obtain ⟨c, cs, value, digit, more⟩ := denotes
  rw [value, String.toList_ofList]
  exact Decimal.read?_digits digit more
theorem kind_ne_finish_of_scan (source : String) : ∀ t ∈ (Token.scan source).tokens, t.kind ≠ .finish := by
  intro t inside finish
  have denotes := Token.denotes_scan source t inside
  rw [finish] at denotes
  exact denotes
/-- A text is read as a program exactly if the grammar derives the program from the tokens
    of the text, whose numbers are digits with at most one point among them. -/
theorem ofSource_iff_grammar (source : String) :
    (∀ p, ofSource source = .ok p ↔
      OfProgram (Token.scan source).tokens (Token.scan source).finish p) ∧
    ∀ t ∈ (Token.scan source).tokens, t.kind = .number →
      Decimal.read? t.value =
        if t.value.toList.count '.' ≤ 1 then some (Decimal.literal t.value.toList) else none :=
  ⟨ofTokens_iff_derives (kind_ne_finish_of_scan source), fun _ => read?_of_number⟩

end KoreanScript.Program
