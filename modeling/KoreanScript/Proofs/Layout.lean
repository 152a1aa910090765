import Mathlib
import KoreanScript.Proofs.Cut
import KoreanScript.Proofs.SpanIndependence

/-!
The layout of a text. A text is cut into pieces, each a token behind the blanks in front
of it. Other blanks in their places, and blanks where there were none, leave the tokens
as they are, as long as no blanks disappear altogether and the marker of a table stays
behind its bracket. So they leave the tree as it is, too, or the error.
-/
namespace KoreanScript

/-! ### The lexeme of a piece -/

/-- What is spelled has a first character, which is not blank. -/
theorem TokenKind.Spells.visible {k : TokenKind} {value run : List Char} (spells : k.Spells value run) :
    ∃ c cs, run = c :: cs ∧ Text.isBlank c = false := by
  -- At the end of a text it fits, behind a bracket if it is the marker of a table.
  have fits : (Lexeme.mk k value run).Fits (k == .listDelimiter) [] :=
    ⟨spells, by cases k <;> simp [Ends], by simp⟩
  obtain ⟨c, cs, same, visible, _⟩ := fits.first_eq
  exact ⟨c, cs, same, visible⟩
/-- Two spellings of one value differ at most in their quotes, so their first characters tell them apart. -/
theorem TokenKind.Spells.run_eq {k : TokenKind} {value run other : List Char} (spells : k.Spells value run)
    (spells' : k.Spells value other) (front : run.head? = other.head?) : run = other := by
  cases k with
  | string | illegalString =>
    obtain ⟨q, _, _, rfl⟩ := spells
    obtain ⟨r, _, _, rfl⟩ := spells'
    cases front
    rfl
  | _ => exact spells.1.trans spells'.1.symm
/-- What ends in front of some characters also ends in front of a blank or of the first of them. -/
theorem TokenKind.Ends.respaced {k : TokenKind} {run rest other : List Char} (ends : k.Ends run rest)
    (closed : k = .illegalString → other = [])
    (front : ∀ c ∈ other.head?, Text.isBlank c ∨ c ∈ rest.head?) : k.Ends run other := by
  cases k with
  | number =>
    intro c first
    rcases front c first with blank | same
    · exact (Boundary.blank blank [] c rfl).2
    · exact ends c same
  | identifier | keyword | boolean =>
    intro c first
    rcases front c first with blank | same
    · exact (Boundary.blank blank [] c rfl).1
    · exact ends c same
  | illegalString => exact closed rfl
  | _ =>
    intro joins equal
    rcases front '=' equal with blank | same
    · revert blank
      decide
    · exact ends joins same

namespace Token

theorem marksFrom_blanks (opened : Bool) {blanks : List Char} (blank : ∀ c ∈ blanks, Text.isBlank c) (cs : List Char) :
    marksFrom opened (blanks ++ cs) = marksFrom (opened && blanks.isEmpty) cs := by
  induction blanks generalizing opened with
  | nil => simp
  | cons c blanks ih =>
    rw [List.forall_mem_cons] at blank
    rw [List.cons_append, marksFrom_blank blank.1, ih false blank.2]
    simp
/-- What fits in front of the rest of a text is the first of its tokens. -/
theorem marksFrom_fits {opened : Bool} {l : Lexeme} {rest : List Char} (fits : l.Fits opened rest) :
    marksFrom opened (l.run ++ rest) = ⟨l.kind, String.ofList l.value⟩ :: marksFrom l.opens rest := by
  obtain ⟨c, cs, run, visible, first⟩ := fits.first_eq
  rw [run, List.cons_append]
  exact marksFrom_lexeme cs visible first run

end Token

/-- A spelling of the first token of a text, at its front, fits there. -/
theorem Lexeme.fits_of_marksFrom {opened : Bool} {l : Lexeme} {rest : List Char} {marks : List Mark}
    (spells : l.kind.Spells l.value l.run)
    (first : Token.marksFrom opened (l.run ++ rest) = ⟨l.kind, String.ofList l.value⟩ :: marks) :
    l.Fits opened rest ∧ Token.marksFrom l.opens rest = marks := by
  obtain ⟨c, cs, run, visible⟩ := spells.visible
  have fits := first_fits opened visible (cs ++ rest)
  have text := run_first_append opened c (cs ++ rest)
  generalize Lexeme.first opened c (cs ++ rest) = m at fits text
  generalize (cs ++ rest).drop (m.run.length - 1) = behind at fits text
  have scanned := Token.marksFrom_fits fits
  rw [text, ← List.cons_append, ← run, first, List.cons.injEq, Mark.mk.injEq, String.ofList_inj] at scanned
  obtain ⟨⟨kind, value⟩, later⟩ := scanned
  have same : l.run = m.run := by
    refine spells.run_eq (by rw [kind, value]; exact fits.spells) ?_
    obtain ⟨d, ds, run', _⟩ := fits.spells.visible
    rw [run', List.cons_append, List.cons.injEq] at text
    rw [run, run', text.1]
    rfl
  obtain rfl : m = l := by
    cases l
    cases m
    cases kind
    cases value
    cases same
    rfl
  obtain rfl : behind = rest := by
    rw [← List.cons_append, ← run] at text
    exact List.append_cancel_left text
  exact ⟨fits, later.symm⟩

/-! ### Other blanks -/

namespace Piece

def lexeme (x : Piece) : Lexeme := ⟨x.token.kind, x.token.value.toList, x.run⟩
theorem mark_lexeme (x : Piece) : ⟨x.lexeme.kind, String.ofList x.lexeme.value⟩ = x.token.mark := by
  simp [lexeme, Token.mark]

/-- Whether a text consists of some pieces, its tokens behind all that is blank in front of them,
    and of the blanks `tail`. -/
structure Cuts (source : String) (pieces : List Piece) (tail : List Char) : Prop where
  text : source.toList = textAll pieces ++ tail
  tokens : (Token.scan source).tokens = pieces.map token
  blank : ∀ x ∈ pieces, ∀ c ∈ x.blanks, Text.isBlank c
  spells : ∀ x ∈ pieces, x.token.kind.Spells x.token.value.toList x.run
  blankTail : ∀ c ∈ tail, Text.isBlank c

/-- Whether `gap` may stand in front of a token in place of the blanks there. Where a token directly
    follows another one `gap` may be anything blank, unless the token is the marker of a table. -/
structure Gap (x : Piece) (gap : List Char) : Prop where
  blank : ∀ c ∈ gap, Text.isBlank c
  kept : x.blanks ≠ [] → gap ≠ []
  attached : x.token.is .tableMarker → gap = []

/-- Other blanks for some pieces, and `last` behind them; a string that is never closed takes all
    that is behind it. -/
structure Layout (pieces : List Piece) (gaps : List (List Char)) (last : List Char) : Prop where
  gaps : List.Forall₂ Gap pieces gaps
  blank : ∀ c ∈ last, Text.isBlank c
  closed : ∀ x ∈ pieces.getLast?, x.token.kind = .illegalString → last = []

/-- The text of some pieces with other blanks in front of their tokens. -/
def textWith : List Piece → List (List Char) → List Char
  | x :: xs, gap :: gaps => gap ++ (x.run ++ textWith xs gaps)
  | _, _ => []

variable {x : Piece} {xs pieces : List Piece} {gap last tail : List Char} {gaps : List (List Char)}

theorem Layout.later (layout : Layout (x :: xs) (gap :: gaps) last) : Layout xs gaps last := by
  cases layout.gaps with
  | cons _ later => exact ⟨later, layout.blank, fun y final => layout.closed y (List.mem_getLast?_cons final)⟩
/-- Behind a token stands a blank, or what stood there before. -/
theorem Layout.front (layout : Layout pieces gaps last)
    (spells : ∀ x ∈ pieces, x.token.kind.Spells x.token.value.toList x.run) :
    ∀ c ∈ (textWith pieces gaps ++ last).head?, Text.isBlank c ∨ c ∈ (textAll pieces ++ tail).head? := by
  intro c front
  obtain ⟨spaced, blank, _⟩ := layout
  cases spaced with
  | nil => exact .inl (blank c (List.mem_of_mem_head? front))
  | @cons x gap xs gaps first _ =>
    cases gap with
    | cons d gap =>
      cases front
      exact .inl (first.blank c (by simp))
    | nil =>
      have none : x.blanks = [] := by
        by_contra some
        exact first.kept some rfl
      obtain ⟨d, ds, run, _⟩ := (spells x (by simp)).visible
      simp only [textWith, run] at front
      exact .inr (by simpa [textAll_cons, none, run] using front)
/-- The lexeme of a piece fits as well with other blanks in front of it and behind it. -/
theorem Layout.fits {opened : Bool} (layout : Layout (x :: xs) (gap :: gaps) last)
    (spells : ∀ y ∈ xs, y.token.kind.Spells y.token.value.toList y.run)
    (fits : x.lexeme.Fits (opened && x.blanks.isEmpty) (textAll xs ++ tail)) :
    x.lexeme.Fits (opened && gap.isEmpty) (textWith xs gaps ++ last) := by
  obtain ⟨first, -⟩ := List.forall₂_cons.mp layout.gaps
  refine ⟨fits.spells, fits.ends.respaced (fun kind => ?_) (layout.later.front spells), fun bang => ?_⟩
  · -- Nothing is behind a string that is never closed, so its piece is the last one.
    have ends := fits.ends
    rw [kind] at ends
    obtain ⟨none, -⟩ := List.append_eq_nil_iff.mp ends
    cases xs with
    | nil => simpa [textWith] using layout.closed x rfl kind
    | cons y ys =>
      obtain ⟨c, cs, run, _⟩ := (spells y (by simp)).visible
      simp [textAll_cons, run] at none
  · rw [fits.marker bang, Bool.and_eq_true, Bool.and_eq_true, List.isEmpty_iff, List.isEmpty_iff]
    constructor
    · rintro ⟨open', none⟩
      refine ⟨open', first.attached ?_⟩
      have kind := (fits.marker bang).mpr (by simp [open', none])
      have value := fits.spells
      rw [kind] at value
      rw [Token.is_iff]
      refine ⟨kind, ?_⟩
      rw [← String.toList_inj]
      exact value.1.symm.trans bang
    · rintro ⟨open', none⟩
      refine ⟨open', ?_⟩
      by_contra some
      exact first.kept some none
/-- Other blanks leave the marks of a text as they are. -/
theorem Layout.marks {opened : Bool} (layout : Layout pieces gaps last)
    (blank : ∀ x ∈ pieces, ∀ c ∈ x.blanks, Text.isBlank c)
    (spells : ∀ x ∈ pieces, x.token.kind.Spells x.token.value.toList x.run)
    (marks : Token.marksFrom opened (textAll pieces ++ tail) = pieces.map fun x => x.token.mark) :
    Token.marksFrom opened (textWith pieces gaps ++ last) = pieces.map fun x => x.token.mark := by
  induction pieces generalizing opened gaps with
  | nil =>
    have all := Token.marksFrom_blanks opened layout.blank []
    rw [List.append_nil, Token.marksFrom_nil] at all
    simpa [textWith] using all
  | cons x xs ih =>
    cases gaps with
    | nil => cases layout.gaps
    | cons gap gaps =>
      rw [List.forall_mem_cons] at blank spells
      obtain ⟨first, -⟩ := List.forall₂_cons.mp layout.gaps
      rw [textAll_cons, List.append_assoc, List.append_assoc, Token.marksFrom_blanks opened blank.1] at marks
      rw [List.map_cons, ← x.mark_lexeme] at marks
      obtain ⟨fits, later⟩ := Lexeme.fits_of_marksFrom (l := x.lexeme) spells.1 marks
      rw [textWith, List.append_assoc, List.append_assoc, Token.marksFrom_blanks opened first.blank]
      refine (Token.marksFrom_fits (layout.fits spells.2 fits)).trans ?_
      rw [ih layout.later blank.2 spells.2 later, x.mark_lexeme, List.map_cons]

end Piece

/-! ### The main result -/

/-- Layout never counts. A text is cut into tokens and the blanks around them; with other blanks
    there it has tokens of the same kinds and values, and makes a program that is equal up to spans
    or is refused for the same cause. -/
theorem layout_never_counts (source : String) :
    (∃ pieces tail, Piece.Cuts source pieces tail) ∧
    ∀ pieces tail gaps last, Piece.Cuts source pieces tail → Piece.Layout pieces gaps last →
      let other := String.ofList (Piece.textWith pieces gaps ++ last)
      (Token.scan other).tokens.map Token.mark = (Token.scan source).tokens.map Token.mark ∧
      Parse.Agree .upToSpans (Program.Alike .upToSpans) (Program.ofSource source) (Program.ofSource other) := by
  constructor
  · obtain ⟨pieces, tail, text, tokens, blank, fit⟩ := (Cut.scanFrom false .origin source.toList).pieces
    have each : ∀ x ∈ pieces, ∃ opened rest, x.Fits opened rest := by
      intro x member
      obtain ⟨before, after, split⟩ := List.append_of_mem member
      exact ⟨_, _, (fit before x after split).1⟩
    refine ⟨pieces, tail, text, tokens, fun x member => ?_, fun x member => ?_, blank⟩
    · obtain ⟨_, _, fits⟩ := each x member
      exact fits.blank
    · obtain ⟨_, _, fits⟩ := each x member
      exact fits.spells
  · intro pieces tail gaps last cuts layout other
    have marks : Token.marksFrom false (Piece.textAll pieces ++ tail) = pieces.map fun x => x.token.mark := by
      rw [← cuts.text, Token.marksFrom, ← Token.scan, cuts.tokens, List.map_map]
      rfl
    have same : (Token.scan other).tokens.map Token.mark = (Token.scan source).tokens.map Token.mark := by
      rw [Token.scan, String.toList_ofList, cuts.tokens, List.map_map]
      exact layout.marks cuts.blank cuts.spells marks
    exact ⟨same, Program.ofTokens_agree Likeness.upToSpans_joins (.of_marks same.symm) trivial⟩

set_option maxRecDepth 100000 in
/-- Blanks in front of a string with a blank in it, more of them behind the string, and some around
    the brackets, but none in front of the marker of the table. -/
theorem layout_never_counts_table :
    let other := "\n[!\t'a b'\n:  x ]"
    (Token.scan other).tokens.map Token.mark = (Token.scan "[!'a b' :x]").tokens.map Token.mark ∧
    Parse.Agree .upToSpans (Program.Alike .upToSpans) (Program.ofSource "[!'a b' :x]") (Program.ofSource other) := by
  let pieces : List Piece :=
    [⟨[], ['['], ⟨.listDelimiter, "[", ⟨⟨0, 0⟩, ⟨0, 0⟩⟩⟩⟩, ⟨[], ['!'], ⟨.listDelimiter, "!", ⟨⟨0, 1⟩, ⟨0, 1⟩⟩⟩⟩,
      ⟨[], ['\'', 'a', ' ', 'b', '\''], ⟨.string, "a b", ⟨⟨0, 2⟩, ⟨0, 6⟩⟩⟩⟩,
      ⟨[' '], [':'], ⟨.separator, ":", ⟨⟨0, 8⟩, ⟨0, 8⟩⟩⟩⟩, ⟨[], ['x'], ⟨.identifier, "x", ⟨⟨0, 9⟩, ⟨0, 9⟩⟩⟩⟩,
      ⟨[], [']'], ⟨.listDelimiter, "]", ⟨⟨0, 10⟩, ⟨0, 10⟩⟩⟩⟩]
  have blanks : Text.isBlank ' ' ∧ Text.isBlank '\t' ∧ Text.isBlank '\n' := by decide
  have cuts : Piece.Cuts "[!'a b' :x]" pieces [] := by
    refine ⟨by decide, by cbv, by simp [pieces, blanks], ?_, by simp⟩
    have word : TokenKind.IsWord ['x'] := ⟨'x', [], rfl, by decide, by simp⟩
    simp [pieces, TokenKind.Spells, TokenKind.Admits, word, Word.keywords, Word.booleans]
    decide
  have layout : Piece.Layout pieces [['\n'], [], ['\t'], ['\n'], [' ', ' '], [' ']] [] := by
    refine ⟨?_, by simp, by simp [pieces]⟩
    repeat first | exact .nil | refine .cons ⟨by simp [blanks], by decide, by decide⟩ ?_
  have text : String.ofList (Piece.textWith pieces [['\n'], [], ['\t'], ['\n'], [' ', ' '], [' ']] ++ []) =
      "\n[!\t'a b'\n:  x ]" := by decide
  have same := (layout_never_counts "[!'a b' :x]").2 pieces [] _ [] cuts layout
  rwa [text] at same

end KoreanScript
