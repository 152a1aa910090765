import KoreanScript.Proofs.Cut
import KoreanScript.Proofs.TokenLikeness

/-!
The part of a text that a span covers, and its tokens. From the first character of a
token to the last character of a later one, the text is cut on its own as it is cut
within the whole, except that its places count from its own first character.
-/
namespace KoreanScript

/-! ### Reading order -/

namespace Position

/-- Whether a place stands before another one in reading order. -/
def Precedes (p q : Position) : Prop := p.row < q.row ∨ p.row = q.row ∧ p.column < q.column

theorem order_isLE_iff {p q : Position} : (p.order q).isLE ↔ ¬ q.Precedes p := by
  unfold order Precedes
  rcases Nat.lt_trichotomy p.row q.row with less | same | more
  · simp only [Nat.compare_eq_lt.mpr less, Ordering.then]
    simp
    omega
  · simpa [Ordering.then, same] using Nat.isLE_compare
  · simp only [Nat.compare_eq_gt.mpr more, Ordering.then]
    simp
    omega
theorem precedes_after (p : Position) (c : Char) : p.Precedes (p.after c) := by
  unfold after Precedes
  split
  · simp
  · simp
theorem Precedes.trans {p q r : Position} (first : p.Precedes q) (second : q.Precedes r) : p.Precedes r := by
  unfold Precedes at *
  omega
theorem not_precedes_self (p : Position) : ¬ p.Precedes p := by
  unfold Precedes
  omega
/-- A text ends behind its first character. -/
theorem precedes_afterAll (p : Position) {cs : List Char} (nonempty : cs ≠ []) : p.Precedes (p.afterAll cs) := by
  induction cs generalizing p with
  | nil => exact absurd rfl nonempty
  | cons c cs ih =>
    rw [afterAll_cons]
    cases cs with
    | nil => exact p.precedes_after c
    | cons d cs => exact (p.precedes_after c).trans (ih _ (by simp))
theorem not_afterAll_precedes (p : Position) (cs : List Char) : ¬ (p.afterAll cs).Precedes p := by
  intro back
  by_cases empty : cs = []
  · subst empty
    exact p.not_precedes_self back
  · exact p.not_precedes_self ((p.precedes_afterAll empty).trans back)

end Position

/-! ### The text in a span -/

namespace Span

/-- Whether a place lies in a span, whose ends are in it. -/
def covers (s : Span) (p : Position) : Bool := (s.first.order p).isLE && (p.order s.last).isLE
/-- What a span covers of a text that begins at `p`. -/
def charsFrom (s : Span) (p : Position) : List Char → List Char
  | [] => []
  | c :: cs => if s.covers p then c :: s.charsFrom (p.after c) cs else s.charsFrom (p.after c) cs
/-- The part of a text that a span covers. -/
def textIn (s : Span) (source : String) : String := String.ofList (s.charsFrom .origin source.toList)

theorem covers_iff {s : Span} {p : Position} : s.covers p ↔ ¬ p.Precedes s.first ∧ ¬ s.last.Precedes p := by
  rw [covers, Bool.and_eq_true, Position.order_isLE_iff, Position.order_isLE_iff]
theorem charsFrom_append (s : Span) (p : Position) (cs ds : List Char) :
    s.charsFrom p (cs ++ ds) = s.charsFrom p cs ++ s.charsFrom (p.afterAll cs) ds := by
  induction cs generalizing p with
  | nil => rfl
  | cons c cs ih =>
    rw [List.cons_append, charsFrom, charsFrom, ih, Position.afterAll_cons]
    split
    · rfl
    · rfl
theorem charsFrom_outside {s : Span} {p : Position} {cs : List Char}
    (outside : ∀ before c after, cs = before ++ c :: after → ¬ s.covers (p.afterAll before)) :
    s.charsFrom p cs = [] := by
  induction cs generalizing p with
  | nil => rfl
  | cons c cs ih =>
    have first : ¬ s.covers p := outside [] c cs rfl
    rw [charsFrom, if_neg first]
    apply ih
    intro before d after split
    exact outside (c :: before) d after (by rw [split, List.cons_append])
theorem charsFrom_inside {s : Span} {p : Position} {cs : List Char}
    (inside : ∀ before c after, cs = before ++ c :: after → s.covers (p.afterAll before)) :
    s.charsFrom p cs = cs := by
  induction cs generalizing p with
  | nil => rfl
  | cons c cs ih =>
    have first : s.covers p := inside [] c cs rfl
    rw [charsFrom, if_pos first]
    congr 1
    apply ih
    intro before d after split
    exact inside (c :: before) d after (by rw [split, List.cons_append])
/-- From the first to the last character of a part of a text lies that part. -/
theorem charsFrom_part (p : Position) (before : List Char) {part : List Char} (nonempty : part ≠ [])
    (behind : List Char) :
    charsFrom ⟨p.afterAll before, p.afterAll (before ++ part.dropLast)⟩ p (before ++ part ++ behind) = part := by
  obtain ⟨inner, c, rfl⟩ := (List.eq_nil_or_concat part).resolve_left nonempty
  rw [List.concat_eq_append, List.dropLast_concat, charsFrom_append, charsFrom_append, charsFrom_outside, charsFrom_inside,
    charsFrom_outside, List.nil_append, List.append_nil]
  · -- What is behind the part is behind its last character.
    intro xs d ys _ inside
    refine (covers_iff.mp inside).2 ?_
    have later := (p.afterAll (before ++ inner)).precedes_afterAll (List.cons_ne_nil c xs)
    simpa only [Position.afterAll_append, Position.afterAll_cons, Position.afterAll_nil] using later
  · intro xs d ys split
    rw [covers_iff]
    constructor
    · exact Position.not_afterAll_precedes _ _
    · have inner_eq : inner = xs ++ (d :: ys).dropLast := by
        rw [← List.dropLast_append_of_ne_nil (by simp), ← split, List.dropLast_concat]
      rw [inner_eq, ← List.append_assoc, Position.afterAll_append, Position.afterAll_append]
      exact Position.not_afterAll_precedes _ _
  · intro xs d ys split inside
    refine (covers_iff.mp inside).1 ?_
    rw [split, Position.afterAll_append]
    exact Position.precedes_afterAll _ (by simp)

end Span

/-! ### Other beginnings -/

/-- The place that `q` is in a text whose first character stands at `a`: only the columns of the
    first row and the rows count on from there. -/
def Position.beyond (a q : Position) : Position :=
  if q.row = 0 then ⟨a.row, a.column + q.column⟩ else ⟨a.row + q.row, q.column⟩
theorem Position.beyond_origin (a : Position) : a.beyond .origin = a := rfl
theorem Position.beyond_after (a q : Position) (c : Char) : a.beyond (q.after c) = (a.beyond q).after c := by
  unfold beyond after
  by_cases feed : c = '\n'
  · by_cases top : q.row = 0
    · simp [feed, top]
    · simp [feed, top, Nat.add_assoc]
  · by_cases top : q.row = 0
    · simp [feed, top, Nat.add_assoc]
    · simp [feed, top]
theorem Position.beyond_afterAll (a q : Position) (cs : List Char) :
    a.beyond (q.afterAll cs) = (a.beyond q).afterAll cs := by
  induction cs generalizing q with
  | nil => rfl
  | cons c cs ih => rw [afterAll_cons, afterAll_cons, ih, beyond_after]

/-- Equality up to the beginning of the text: the spans on the left are those of a text whose first
    character stands at `a`, the spans on the right those of that text alone. -/
def Likeness.moved (a : Position) : Likeness := ⟨fun s t => s = ⟨a.beyond t.first, a.beyond t.last⟩, fun _ => True⟩
theorem Likeness.moved_joins (a : Position) : (moved a).Joins := by
  constructor
  · rintro _ s _ t rfl rfl
    rfl
  · intro n
    trivial

/-- Wherever a text begins, it is cut into the same tokens, which stand as far from its beginning. -/
theorem Cut.moved {a : Position} {opened : Bool} {p : Position} {cs : List Char} {ts : List Token}
    (cut : Cut opened p cs ts) {q : Position} (place : p = a.beyond q) :
    ∃ us, Cut opened q cs us ∧ Token.AllAlike (.moved a) ts us := by
  induction cut generalizing q with
  | nil opened p => exact ⟨[], .nil opened q, .nil⟩
  | blank opened blank _ ih =>
    subst place
    obtain ⟨us, cut, alike⟩ := ih (Position.beyond_after _ _ _).symm
    exact ⟨us, .blank opened blank cut, alike⟩
  | @lexeme opened p l rest ts fits _ ih =>
    subst place
    obtain ⟨us, cut, alike⟩ := ih (Position.beyond_afterAll _ _ _).symm
    refine ⟨l.toToken q :: us, .lexeme fits cut, .cons ⟨rfl, rfl, ?_⟩ alike⟩
    simp only [Likeness.moved, Lexeme.toToken, Span.ofRun, Position.beyond_afterAll]

/-! ### Parts of a text -/

/-- What ends in front of a text ends in front of the beginning of that text. -/
theorem TokenKind.Ends.front {k : TokenKind} {run front rest : List Char} (ends : k.Ends run (front ++ rest)) :
    k.Ends run front := by
  cases front with
  | nil => cases k <;> simp [Ends]
  | cons c front =>
    cases k with
    | illegalString => cases ends
    | _ => exact ends
theorem Lexeme.Fits.front {opened : Bool} {l : Lexeme} {front rest : List Char}
    (fits : l.Fits opened (front ++ rest)) : l.Fits opened front :=
  ⟨fits.spells, fits.ends.front, fits.marker⟩
/-- What is no marker of a table fits behind anything. -/
theorem Lexeme.Fits.anywhere {opened : Bool} {l : Lexeme} {rest : List Char} {p : Position}
    (fits : l.Fits opened rest) (unmarked : ¬ (l.toToken p).is .tableMarker) : l.Fits false rest := by
  refine ⟨fits.spells, fits.ends, fun bang => iff_of_false (fun kind => unmarked ?_) (by decide)⟩
  have spells := fits.spells
  rw [kind] at spells
  rw [Token.is_iff]
  refine ⟨kind, ?_⟩
  simp only [Lexeme.toToken, ← spells.1, bang]
  rfl
/-- In front of each of its tokens a text can be taken apart. -/
theorem Cut.drop {opened : Bool} {p : Position} {cs : List Char} {before ts : List Token} {t : Token}
    (cut : Cut opened p cs (before ++ t :: ts)) (unmarked : ¬ t.is .tableMarker) :
    ∃ front rest, cs = front ++ rest ∧ t.span.first = p.afterAll front ∧ Cut false (p.afterAll front) rest (t :: ts) := by
  generalize tokens : before ++ t :: ts = us at cut
  induction cut generalizing before with
  | nil opened p => simp at tokens
  | @blank opened p c cs us blank _ ih =>
    obtain ⟨front, rest, rfl, first, cut⟩ := ih tokens
    exact ⟨c :: front, rest, rfl, first, cut⟩
  | @lexeme opened p l rest us fits cut ih =>
    cases before with
    | nil =>
      cases tokens
      exact ⟨[], l.run ++ rest, rfl, rfl, .lexeme (fits.anywhere unmarked) cut⟩
    | cons _ before =>
      cases tokens
      obtain ⟨front, rest, rfl, first, cut⟩ := ih rfl
      refine ⟨l.run ++ front, rest, ?_, ?_, ?_⟩
      · rw [List.append_assoc]
      · rw [first, Position.afterAll_append]
      · rwa [Position.afterAll_append]
/-- Behind each of its tokens a text can be taken apart. -/
theorem Cut.take {opened : Bool} {p : Position} {cs : List Char} {ts behind : List Token} {t : Token}
    (cut : Cut opened p cs (ts ++ behind)) (last : ts.getLast? = some t) :
    ∃ front rest, cs = front ++ rest ∧ front ≠ [] ∧ t.span.last = p.afterAll front.dropLast ∧ Cut opened p front ts := by
  generalize tokens : ts ++ behind = us at cut
  induction cut generalizing ts with
  | nil opened p =>
    obtain ⟨rfl, rfl⟩ := List.append_eq_nil_iff.mp tokens
    cases last
  | @blank opened p c cs us blank _ ih =>
    obtain ⟨front, rest, rfl, nonempty, place, cut⟩ := ih last tokens
    refine ⟨c :: front, rest, rfl, by simp, ?_, .blank opened blank cut⟩
    rw [List.dropLast_cons_of_ne_nil nonempty, Position.afterAll_cons, place]
  | @lexeme opened p l rest us fits _ ih =>
    obtain ⟨c, cs, run, _, _⟩ := fits.first_eq
    cases ts with
    | nil => cases last
    | cons u ts =>
      cases tokens
      cases ts with
      | nil =>
        cases last
        refine ⟨l.run, rest, rfl, by simp [run], rfl, ?_⟩
        have alone : l.Fits opened ([] ++ rest) := fits
        have cut : Cut opened p (l.run ++ []) [l.toToken p] := .lexeme alone.front (.nil _ _)
        rwa [List.append_nil] at cut
      | cons v ts =>
        obtain ⟨front, rest, rfl, nonempty, place, cut⟩ := @ih (v :: ts) last rfl
        refine ⟨l.run ++ front, rest, ?_, by simp [nonempty], ?_, .lexeme fits.front cut⟩
        · rw [List.append_assoc]
        · rw [List.dropLast_append_of_ne_nil nonempty, Position.afterAll_append, place]

/-- From the first character of one token of a text to the last of a later one, the text has the same
    tokens as there, unless it begins with the marker of a table. -/
theorem scan_textIn {source : String} {before used behind : List Token} {t u : Token}
    (tokens : (Token.scan source).tokens = before ++ used ++ behind) (first : used.head? = some t)
    (last : used.getLast? = some u) (unmarked : ¬ t.is .tableMarker) :
    Token.AllAlike (.moved t.span.first) used (Token.scan ((t.span.through u.span).textIn source)).tokens := by
  obtain ⟨us, rfl⟩ := List.head?_eq_some_iff.mp first
  have whole := Cut.scanFrom false .origin source.toList
  rw [show (Token.scanFrom false .origin source.toList).tokens = _ from tokens, List.append_assoc, List.cons_append]
    at whole
  obtain ⟨front, rest, text, start, cut⟩ := whole.drop unmarked
  rw [← List.cons_append] at cut
  obtain ⟨part, rest, rfl, nonempty, stop, cut⟩ := cut.take last
  have covered : (t.span.through u.span).textIn source = String.ofList part := by
    rw [Span.textIn, Span.through, start, stop, ← Position.afterAll_append, text, ← List.append_assoc,
      Span.charsFrom_part _ _ nonempty]
  obtain ⟨vs, alone, alike⟩ := cut.moved (Position.beyond_origin _).symm
  rw [covered, Token.scan, String.toList_ofList, alone.tokens_eq, start]
  exact alike

end KoreanScript
