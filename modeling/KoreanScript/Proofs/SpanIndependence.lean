import KoreanScript.Proofs.Marks
import KoreanScript.Proofs.TokenLikeness
import KoreanScript.Proofs.Twins

/-!
Spans carry no meaning. Tokens that differ only in their spans make trees that
differ only in theirs, or are refused for one cause; trees that differ only in their
spans do the same, in stores that differ only in the spans within functions.
-/
namespace KoreanScript
open Likeness (upToSpans)

/-- Values that are equal up to the spans in functions. -/
abbrev Value.AlikeUpToSpans : Value → Value → Prop := Value.Alike upToSpans Eq

/-- Frames that are equal up to the spans in functions. -/
structure Frame.AlikeUpToSpans (a b : Frame) : Prop where
  bindings (name : String) :
    Option.Rel Value.AlikeUpToSpans (Entries.get? name a.bindings) (Entries.get? name b.bindings)
  outer : a.outer = b.outer

namespace Store

/-- Stores whose frames are equal up to the spans in functions. -/
structure AlikeUpToSpans (s t : Store) : Prop where
  size : s.frames.size = t.frames.size
  frames (f : FrameId) : Option.Rel Frame.AlikeUpToSpans s.frames[f]? t.frames[f]?

/-- Every frame stands in for itself, and trees count up to their spans. -/
def samePairing (s t : Store) (size : s.frames.size = t.frames.size) : Pairing where
  likeness := upToSpans
  frames := Eq
  left := s
  right := t
  order := by rintro f _ f' _ rfl rfl; exact Iff.rfl
  fresh k := by rw [size]

variable {s t : Store}

theorem AlikeUpToSpans.stores (alike : s.AlikeUpToSpans t) : (samePairing s t alike.size).Stores s t := by
  refine ⟨⟨0, rfl, rfl⟩, ?_, ⟨#[], by simp [samePairing], by simp [samePairing]⟩⟩
  rintro f _ rfl
  rcases rel_cases (alike.frames f) with ⟨left, right⟩ | ⟨a, b, left, right, same⟩
  · rw [left, right]
    exact .none
  · rw [left, right]
    refine .some ⟨fun name _ => same.bindings name, ?_⟩
    rw [same.outer]
    exact rel_self fun g _ => rfl
theorem AlikeUpToSpans.of_stores {size : s.frames.size = t.frames.size} {a b : Store}
    (stores : (samePairing s t size).Stores a b) : a.AlikeUpToSpans b := by
  constructor
  · obtain ⟨k, left, right⟩ := stores.grown
    rw [left, right]
    exact congrArg (· + k) size
  · intro f
    rcases rel_cases (stores.frames (f := f) (g := f) rfl) with ⟨left, right⟩ | ⟨c, d, left, right, same⟩
    · rw [left, right]
      exact .none
    · rw [left, right]
      refine .some ⟨fun name => same.bindings name trivial, ?_⟩
      rcases rel_cases same.outer with ⟨left, right⟩ | ⟨g, _, left, right, rfl⟩
      · rw [left, right]
      · rw [left, right]

end Store

/-- Evaluations that start in `s` and in `t` and end alike: both with values that are equal up to
    spans and have one text, or both with one cause, in stores that are equal up to spans and
    after writing the same lines. -/
inductive Outcome.AlikeUpToSpans (s t : Store) : Outcome Value → Outcome Value → Prop
  | done {v w : Value} {a b : Store} (lines : Array String) : v.AlikeUpToSpans w → v.render = w.render →
    a.AlikeUpToSpans b → a.output = s.output ++ lines → b.output = t.output ++ lines →
      Outcome.AlikeUpToSpans s t (.done v a) (.done w b)
  | failed (cause : EvalError.Cause) {i j : Span} {a b : Store} (lines : Array String) :
    a.AlikeUpToSpans b → a.output = s.output ++ lines → b.output = t.output ++ lines →
      Outcome.AlikeUpToSpans s t (.failed ⟨cause, i⟩ a) (.failed ⟨cause, j⟩ b)
  | tooDeep : Outcome.AlikeUpToSpans s t .tooDeep .tooDeep

theorem Token.AllAlike.of_marks {ts us : List Token} (same : ts.map Token.mark = us.map Token.mark) :
    Token.AllAlike upToSpans ts us := by
  induction ts generalizing us with
  | nil =>
    cases List.map_eq_nil_iff.mp same.symm
    exact .nil
  | cons t ts ih =>
    obtain ⟨u, us, rfl, mark, rest⟩ := List.map_eq_cons_iff.mp same.symm
    refine .cons ⟨?_, ?_, trivial⟩ (ih rest.symm)
    · exact (congrArg Mark.kind mark).symm
    · exact (congrArg Mark.lexeme mark).symm

theorem Program.eval_alike {p q : Program} (alike : p.Alike upToSpans q) {s t : Store} (stores : s.AlikeUpToSpans t)
    (depth : Nat) (f : FrameId) : Outcome.AlikeUpToSpans s t (p.eval depth f s) (q.eval depth f t) := by
  have ends := Pairing.program_evals (P := Store.samePairing s t stores.size) depth (f := f) rfl alike s t stores.stores
  revert ends
  cases p.eval depth f s <;> cases q.eval depth f t <;>
    rintro (⟨values, stores⟩ | ⟨cause, _, stores⟩ | _)
  · obtain ⟨lines, left, right⟩ := stores.output
    exact .done lines values values.render_eq (.of_stores stores) left right
  · obtain ⟨lines, left, right⟩ := stores.output
    exact .failed cause lines (.of_stores stores) left right
  · exact .tooDeep

/-- Spans never count. Tokens of the same kinds and values make programs that are equal up to
    spans, or are refused for one cause, whatever their spans and that of the end. Programs that
    are equal up to spans, in stores that are equal up to spans, end in the same way. -/
theorem spans_never_count :
    (∀ (ts us : List Token) (i j : Span), ts.map Token.mark = us.map Token.mark →
      Parse.Agree upToSpans (Program.Alike upToSpans) (Program.ofTokens ts i) (Program.ofTokens us j)) ∧
    ∀ (p q : Program) (s t : Store), p.Alike upToSpans q → s.AlikeUpToSpans t → ∀ (depth : Nat) (f : FrameId),
      Outcome.AlikeUpToSpans s t (p.eval depth f s) (q.eval depth f t) := by
  constructor
  · intro ts us i j same
    exact Program.ofTokens_agree Likeness.upToSpans_joins (.of_marks same) trivial
  · intro p q s t alike stores depth f
    exact Program.eval_alike alike stores depth f

/-- A call of a function that fails, written at one place and at another; so is the function. -/
theorem spans_never_count_moved :
    let i : Span := ⟨⟨0, 0⟩, ⟨0, 0⟩⟩
    let j : Span := ⟨⟨3, 1⟩, ⟨3, 9⟩⟩
    let tokens (s : Span) : List Token := [⟨.identifier, "f", s⟩, ⟨.groupDelimiter, "(", s⟩, ⟨.groupDelimiter, ")", s⟩]
    let program (s : Span) : Program := ⟨[.expression (.call (.identifier ⟨"f", s⟩) [] s)], s⟩
    let c (s : Span) : Closure := ⟨0, [], ⟨[.expression (.prefixed .minus (.string "a" s) s)], s⟩, 0⟩
    let store (s : Span) : Store := ⟨#[⟨[("f", .function (c s))], none⟩], 1, #[]⟩
    Parse.Agree upToSpans (Program.Alike upToSpans) (Program.ofTokens (tokens i) i) (Program.ofTokens (tokens j) j) ∧
      Outcome.AlikeUpToSpans (store i) (store j) ((program i).eval 1 0 (store i)) ((program j).eval 1 0 (store j)) := by
  intro i j tokens program c store
  have programs : (program i).Alike upToSpans (program j) :=
    ⟨.cons (.expression (.call (.identifier ⟨rfl, trivial, trivial⟩) .nil trivial)) .nil, trivial⟩
  have functions : (c i).Alike upToSpans Eq (c j) :=
    ⟨.nil, .mk (.cons (.expression (.prefixed .minus (.string "a" trivial) trivial)) .nil) trivial, rfl⟩
  have bindings (name : String) : Option.Rel Value.AlikeUpToSpans
      (Entries.get? name [("f", .function (c i))]) (Entries.get? name [("f", .function (c j))]) := by
    rw [Entries.get?_cons, Entries.get?_cons]
    split
    · exact .some (.function functions)
    · exact .none
  have stores : (store i).AlikeUpToSpans (store j) := by
    refine ⟨rfl, fun f => ?_⟩
    cases f with
    | zero => exact .some ⟨bindings, rfl⟩
    | succ f => exact .none
  exact ⟨spans_never_count.1 _ _ i j rfl, spans_never_count.2 _ _ _ _ programs stores 1 0⟩

end KoreanScript
