import Mathlib.Data.List.Induction
import KoreanScript.Proofs.Lexemes

/-!
How a text is cut into tokens: into blanks and lexemes that fit in front of what is
behind them. There is one such cut, and its tokens are those of the text. Nothing of
the text is lost, no token could be longer, and every token knows its place.
-/
namespace KoreanScript

/-! ### Places -/

namespace Position

/-- The place behind some characters of a text, counted from its start: as many rows down as there
    are line feeds, and as many columns on as there are characters behind the last of them. -/
def behind (cs : List Char) : Position := ⟨cs.count '\n', (cs.reverse.takeWhile (· != '\n')).length⟩

theorem behind_concat (cs : List Char) (c : Char) : behind (cs ++ [c]) = (behind cs).after c := by
  by_cases feed : c = '\n'
  · simp [behind, after, feed]
  · simp [behind, after, feed]
theorem afterAll_origin (cs : List Char) : origin.afterAll cs = behind cs := by
  induction cs using List.reverseRecOn with
  | nil => rfl
  | append_singleton cs c ih => rw [afterAll_append, ih, behind_concat, afterAll_cons, afterAll_nil]

end Position

/-! ### Cuts -/

/-- The text `cs`, which begins at `p`, directly behind an opening bracket if `opened`, is cut
    into tokens. -/
inductive Cut : Bool → Position → List Char → List Token → Prop
  | nil (opened : Bool) (p : Position) : Cut opened p [] []
  | blank (opened : Bool) {p : Position} {c : Char} {cs : List Char} {ts : List Token} :
    Text.isBlank c → Cut false (p.after c) cs ts → Cut opened p (c :: cs) ts
  | lexeme {opened : Bool} {p : Position} {l : Lexeme} {rest : List Char} {ts : List Token} :
    l.Fits opened rest → Cut l.opens (p.afterAll l.run) rest ts → Cut opened p (l.run ++ rest) (l.toToken p :: ts)

/-- A text is cut into its tokens. -/
theorem Cut.scanFrom (opened : Bool) (p : Position) (cs : List Char) :
    Cut opened p cs (Token.scanFrom opened p cs).tokens := by
  induction size : cs.length using Nat.strongRecOn generalizing opened p cs with
  | _ n ih =>
    subst size
    cases cs with
    | nil =>
      rw [Token.scanFrom]
      exact .nil opened p
    | cons c cs =>
      rw [Token.scanFrom]
      split
      · next blank => exact .blank opened blank (ih _ (by simp) _ _ _ rfl)
      · next visible =>
        have fits := Lexeme.first_fits opened (by simpa using visible) cs
        have rest := ih _ (by simp only [List.length_drop, List.length_cons]; omega)
          (Lexeme.first opened c cs).opens (p.afterAll (Lexeme.first opened c cs).run)
          (cs.drop ((Lexeme.first opened c cs).run.length - 1)) rfl
        have whole := Cut.lexeme fits rest
        rwa [Lexeme.run_first_append] at whole
/-- Whatever a text is cut into are its tokens. -/
theorem Cut.tokens_eq {opened : Bool} {p : Position} {cs : List Char} {ts : List Token} (cut : Cut opened p cs ts) :
    (Token.scanFrom opened p cs).tokens = ts := by
  induction cut with
  | nil opened p => rw [Token.scanFrom]
  | blank opened blank _ ih => rw [Token.scanFrom, if_pos blank, ih]
  | @lexeme opened p l rest ts fits _ ih =>
    obtain ⟨c, cs, run, visible, first⟩ := fits.first_eq
    rw [run, List.cons_append, Token.scanFrom, if_neg (by simp [visible])]
    simp only [first, run, List.length_cons, Nat.add_sub_cancel, List.drop_left]
    rw [← run, ih]
theorem scanFrom_finish (opened : Bool) (p : Position) (cs : List Char) :
    (Token.scanFrom opened p cs).finish = ⟨p.afterAll cs, p.afterAll cs⟩ := by
  induction size : cs.length using Nat.strongRecOn generalizing opened p cs with
  | _ n ih =>
    subst size
    cases cs with
    | nil =>
      rw [Token.scanFrom]
      rfl
    | cons c cs =>
      rw [Token.scanFrom]
      split
      · rw [ih _ (by simp) _ _ _ rfl, Position.afterAll_cons]
      · rw [ih _ (by simp only [List.length_drop, List.length_cons]; omega) _ _ _ rfl, ← Position.afterAll_append,
          Lexeme.run_first_append]

/-! ### The pieces of a text -/

/-- A token with its text and the blanks in front of it. -/
structure Piece where
  blanks : List Char
  run : List Char
  token : Token

namespace Piece

def text (x : Piece) : List Char := x.blanks ++ x.run
/-- The text of some pieces. -/
def textAll (xs : List Piece) : List Char := xs.flatMap text

theorem textAll_cons (x : Piece) (xs : List Piece) : textAll (x :: xs) = x.blanks ++ x.run ++ textAll xs := rfl

/-- Whether a piece fits in front of `rest`, directly behind an opening bracket if `opened` and
    there are no blanks in it. -/
structure Fits (opened : Bool) (rest : List Char) (x : Piece) : Prop where
  blank : ∀ c ∈ x.blanks, Text.isBlank c
  spells : x.token.kind.Spells x.token.value.toList x.run
  ends : x.token.kind.Ends x.run rest
  /-- An exclamation mark is the marker of a table if it directly follows an opening bracket and no
      equals sign directly follows it. -/
  marker : x.run.head? = some '!' →
    (x.token.is .tableMarker ↔ opened = true ∧ x.blanks = [] ∧ (x.run.tail ++ rest).head? ≠ some '=')

/-- Whether the last of some pieces is an opening bracket; `opened` says whether what is in front
    of them is one. -/
def opens (opened : Bool) (before : List Piece) : Bool :=
  match before.getLast? with
  | none => opened
  | some x => x.token.is .openList

theorem opens_cons (opened : Bool) (x : Piece) (before : List Piece) :
    opens opened (x :: before) = opens (x.token.is .openList) before := by
  cases before with
  | nil => rfl
  | cons y before => rw [opens, opens, List.getLast?_cons_cons, List.getLast?_cons]
/-- Whether a piece of a text that begins at `p` stands where its token says. -/
def Placed (p : Position) (x : Piece) : Prop :=
  x.token.span = ⟨p.afterAll x.blanks, p.afterAll (x.blanks ++ x.run.dropLast)⟩
/-- Whether all pieces of a text that begins at `p` and ends in `tail` fit and stand where they
    should. -/
def AllFit (opened : Bool) (p : Position) (tail : List Char) (pieces : List Piece) : Prop :=
  ∀ before x after, pieces = before ++ x :: after →
    x.Fits (opens opened before) (textAll after ++ tail) ∧ x.Placed (p.afterAll (textAll before))

theorem AllFit.cons {opened : Bool} {p : Position} {tail : List Char} {x : Piece} {xs : List Piece}
    (fits : x.Fits opened (textAll xs ++ tail)) (placed : x.Placed p)
    (rest : AllFit (x.token.is .openList) (p.afterAll x.text) tail xs) : AllFit opened p tail (x :: xs) := by
  intro before y after split
  cases before with
  | nil =>
    cases split
    exact ⟨fits, placed⟩
  | cons _ before =>
    cases split
    have inner := rest before y after rfl
    rw [← Position.afterAll_append] at inner
    rwa [opens_cons]
/-- A blank in front belongs to the piece behind it, which is then no marker of a table. -/
theorem AllFit.blank {p : Position} {c : Char} {tail : List Char} {x : Piece} {xs : List Piece} (opened : Bool)
    (blank : Text.isBlank c) (fit : AllFit false (p.after c) tail (x :: xs)) :
    AllFit opened p tail ({x with blanks := c :: x.blanks} :: xs) := by
  obtain ⟨⟨blanks, spells, ends, marker⟩, placed⟩ := fit [] x xs rfl
  refine .cons ⟨List.forall_mem_cons.mpr ⟨blank, blanks⟩, spells, ends, fun bang => ?_⟩ placed ?_
  · have unmarked : ¬ x.token.is .tableMarker := fun marked => by simpa [opens] using (marker bang).mp marked
    exact iff_of_false unmarked (by simp)
  · intro before y after split
    have inner := fit (x :: before) y after (by rw [split, List.cons_append])
    rw [opens_cons, textAll_cons, Position.afterAll_append] at inner
    exact inner

end Piece

/-- A cut gives the pieces of the text. -/
theorem Cut.pieces {opened : Bool} {p : Position} {cs : List Char} {ts : List Token} (cut : Cut opened p cs ts) :
    ∃ pieces tail, cs = Piece.textAll pieces ++ tail ∧ ts = pieces.map Piece.token ∧
      (∀ c ∈ tail, Text.isBlank c) ∧ Piece.AllFit opened p tail pieces := by
  induction cut with
  | nil opened p => exact ⟨[], [], rfl, rfl, by simp, by simp [Piece.AllFit]⟩
  | @blank opened p c cs ts blank _ ih =>
    obtain ⟨pieces, tail, rfl, rfl, blanks, fit⟩ := ih
    cases pieces with
    | nil =>
      refine ⟨[], c :: tail, rfl, rfl, ?_, by simp [Piece.AllFit]⟩
      exact List.forall_mem_cons.mpr ⟨blank, blanks⟩
    | cons x xs => exact ⟨{x with blanks := c :: x.blanks} :: xs, tail, rfl, rfl, blanks, fit.blank opened blank⟩
  | @lexeme opened p l rest ts fits _ ih =>
    obtain ⟨pieces, tail, rfl, rfl, blanks, fit⟩ := ih
    refine ⟨⟨[], l.run, l.toToken p⟩ :: pieces, tail, ?_, rfl, blanks, ?_⟩
    · rw [Piece.textAll_cons, List.nil_append, List.append_assoc]
    · refine .cons ⟨by simp, ?_, fits.ends, ?_⟩ rfl ?_
      · simpa [Lexeme.toToken] using fits.spells
      · intro bang
        simpa using fits.is_tableMarker_iff p bang
      · rwa [fits.opens_eq p] at fit

/-! ### The main result -/

/-- Scanning cuts a text into pieces, each a token behind blanks, and leaves only blanks. The tokens
    spell the text and none of them could be longer; each covers its own characters, and the end
    stands behind all of them. -/
theorem scan_cuts (source : String) : ∃ pieces tail,
    source.toList = Piece.textAll pieces ++ tail ∧ (∀ c ∈ tail, Text.isBlank c) ∧
    (Token.scan source).tokens = pieces.map Piece.token ∧
    (Token.scan source).finish = ⟨.behind source.toList, .behind source.toList⟩ ∧
    ∀ before x after, pieces = before ++ x :: after →
      x.Fits (Piece.opens false before) (Piece.textAll after ++ tail) ∧
      x.token.span = ⟨.behind (Piece.textAll before ++ x.blanks),
        .behind (Piece.textAll before ++ x.blanks ++ x.run.dropLast)⟩ := by
  obtain ⟨pieces, tail, text, tokens, blanks, fit⟩ := (Cut.scanFrom false .origin source.toList).pieces
  refine ⟨pieces, tail, text, blanks, tokens, ?_, ?_⟩
  · rw [Token.scan, scanFrom_finish, Position.afterAll_origin]
  · intro before x after split
    obtain ⟨fits, placed⟩ := fit before x after split
    refine ⟨fits, placed.trans ?_⟩
    rw [← Position.afterAll_append, ← Position.afterAll_append, Position.afterAll_origin, Position.afterAll_origin,
      ← List.append_assoc]

end KoreanScript
