import Mathlib
import KoreanScript.Proofs.ExpressionRefusals
import KoreanScript.Proofs.Recognition

/-!
Syntax errors are reported at the earliest token. The parser refuses tokens where
nothing behind them could help any more, and not before. So the tokens in front of an
error are the longest run at the front that could still become a program, and the error
is the same whatever stands behind the refused token.
-/
namespace KoreanScript
namespace Grammar

/-! ### Statements -/

def OfBare (ts : List Token) : Prop := ∃ a o, Bare ts a o
def OfStatement (ts : List Token) : Prop := ∃ a o, Closing ts a o
/-- Tokens that make up statements in front of what `ends` them. -/
inductive Run (ends : List Token → Prop) : List Token → Prop
  | mk {ts us : List Token} {ss : List Statement} : Statements ts ss → ends us → Run ends (ts ++ us)
/-- The brace that closes a block. -/
def Brace (ts : List Token) : Prop := ∃ t, ts = [t] ∧ t.is .closeBlock

theorem branch_eq {s : Span} {t : Token} (first : t.is .branch) (us : List Token) :
    Read.bareStatement s (t :: us) = (do
      let (predicate, rest) ← Read.expression s .lowest us
      let (consequence, rest) ← Read.block s rest
      match rest with
      | [] => .ok (.branch predicate consequence none (t.span.through consequence.span), [])
      | u :: rest =>
        if u.is .otherwise then do
          let (alternative, rest) ← Read.block s rest
          .ok (.branch predicate consequence (some alternative) (t.span.through alternative.span), rest)
        else .ok (.branch predicate consequence none (t.span.through consequence.span), u :: rest)) :=
  (Read.bareStatement_cons s t us).trans (if_pos first)

theorem Completes.someStatement : Completes OfBare [] :=
  .marks [.name] (by decide) ⟨_, _, .expression (Derives.someName.weaken (by decide))⟩
theorem Completes.noRun {ends : List Token → Prop} (closes : Completes ends []) : Completes (Run ends) [] := by
  obtain ⟨us, endless, final⟩ := closes
  exact ⟨us, endless, .mk .nil final⟩
/-- What can be completed to statements can still be behind a statement that the parser takes
    off the front of it. -/
theorem Run.behind {ends : List Token → Prop} {used us ts : List Token} {a : Statement} {o : Option Expr}
    (closes : Completes ends []) (closing : Closing used a o) (follows : ∀ r ∈ o, Follows 1 r ts) (front : us <+: ts)
    (completes : Completes (Run ends) us) : Completes (Run ends) (used ++ us) := by
  cases us with
  | nil =>
    -- What stood behind the statement is not kept, so the statements may end here.
    refine closes.trans fun vs final => ?_
    have alone : Statements (used ++ []) [a] := .cons closing .nil (by simp)
    rw [List.append_nil] at alone
    exact .whole (.mk alone final)
  | cons u us =>
    obtain ⟨vs, endless, run⟩ := completes
    refine ⟨vs, endless, ?_⟩
    generalize split : u :: us ++ vs = all at run
    obtain ⟨statements, final⟩ := run
    rw [List.append_assoc, split, ← List.append_assoc]
    refine .mk (.cons closing statements fun r last t first => ?_) final
    obtain ⟨rest, rfl⟩ := front
    obtain ⟨ws, rfl⟩ := List.head?_eq_some_iff.mp first
    obtain ⟨rfl, _⟩ := List.cons.inj split
    exact not_continues_of_follows (follows r last)

section
variable {n : Nat} (below : RefusedBelow n)
include below

theorem branch_refused {s : Span} {t : Token} {ts : List Token} {e : ParseError} (bound : ts.length < n)
    (first : t.is .branch) (failed : Read.bareStatement s (t :: ts) = .error e) :
    Refused Read.bareStatement OfBare s e (t :: ts) := by
  rw [branch_eq first] at failed
  rcases bind_eq_error.mp failed with test | ⟨⟨p, us⟩, test, behind⟩
  · refine ((below s ts e bound).1 .lowest .lowest test).within [t] ?_ fun s' us e' _ failed => ?_
    · rintro us ⟨p, r, predicate⟩
      exact .marks [.openBlock, .closeBlock] (by decide) ⟨_, _, .branch first predicate .empty⟩
    · exact (branch_eq first us).trans (bind_eq_error.mpr (.inl failed))
  obtain ⟨used, r, rfl, predicate, steady⟩ := expression_steady .lowest test
  simp only [List.length_append] at bound
  rcases bind_eq_error.mp behind with block | ⟨⟨b, vs⟩, block, last⟩
  · refine ((below s us e (by omega)).2 block).within (t :: used) ?_ fun s' us e' same failed => ?_
    · rintro us ⟨b, consequence⟩
      exact .whole ⟨_, _, .branch first predicate consequence⟩
    · refine (branch_eq first _).trans (bind_eq_error.mpr (.inr ⟨_, steady s' us same, ?_⟩))
      exact bind_eq_error.mpr (.inl failed)
  obtain ⟨used', rfl, consequence, steady'⟩ := block_steady block
  cases vs with
  | nil => cases last
  | cons u vs =>
    simp only at last
    split at last
    · next other =>
      have block' := error_of_bind_ok last fun _ => ⟨_, rfl⟩
      have smaller : vs.length < n := by
        simp only [List.length_append, List.length_cons] at bound
        omega
      have refused : Refused Read.bareStatement OfBare s e (t :: (used ++ used') ++ u :: vs) := by
        refine ((below s vs e smaller).2 block').behind _ u ?_ fun s' us e' same failed => ?_
        · rintro us ⟨c, alternative⟩
          rw [List.cons_append, List.append_assoc]
          exact .whole ⟨_, _, .branchElse first predicate consequence other alternative⟩
        · rw [List.cons_append, List.append_assoc]
          have begins : (used' ++ u :: us).head? = (used' ++ u :: vs).head? := by
            cases consequence
            rfl
          refine (branch_eq first _).trans (bind_eq_error.mpr (.inr ⟨_, steady s' _ begins, ?_⟩))
          refine bind_eq_error.mpr (.inr ⟨_, steady' s' _, ?_⟩)
          exact (if_pos other).trans (bind_eq_error.mpr (.inl failed))
      rwa [List.cons_append, List.append_assoc] at refused
    · cases last
theorem bareStatement_refused {s : Span} {ts : List Token} {e : ParseError} (bound : ts.length < n + 1)
    (failed : Read.bareStatement s ts = .error e) : Refused Read.bareStatement OfBare s e ts := by
  cases ts with
  | nil =>
    rw [Read.bareStatement_nil] at failed
    cases failed
    exact .finish .someStatement (by simp) rfl
  | cons t ts =>
    have smaller : ts.length < n := Nat.lt_of_succ_lt_succ bound
    by_cases branch : t.is .branch
    · exact branch_refused below smaller branch failed
    rw [Read.bareStatement_cons, if_neg branch] at failed
    by_cases back : t.is .giveBack
    · rw [if_pos back] at failed
      have inner := error_of_bind_ok failed fun _ => ⟨_, rfl⟩
      refine ((below s ts e smaller).1 .lowest .lowest inner).within [t] ?_ fun s' us e' _ failed => ?_
      · rintro us ⟨d, r, derived⟩
        exact .whole ⟨_, _, .giveBack back derived⟩
      · rw [List.singleton_append, Read.bareStatement_cons, if_neg branch, if_pos back]
        exact bind_eq_error.mpr (.inl failed)
    rw [if_neg back] at failed
    by_cases stray : t.is .otherwise
    · rw [if_pos stray] at failed
      cases failed
      refine .token [] .someStatement (by simp) rfl fun s' us => ?_
      rw [List.nil_append, Read.bareStatement_cons, if_neg branch, if_neg back, if_pos stray]
    rw [if_neg stray] at failed
    have inner := error_of_bind_ok failed fun _ => ⟨_, rfl⟩
    refine (expression_refused below .lowest bound inner).within [] ?_ fun s' us e' same failed => ?_
    · rintro us ⟨d, r, derived⟩
      exact .whole ⟨_, _, .expression derived⟩
    · obtain ⟨vs, rfl⟩ := List.head?_eq_some_iff.mp same
      rw [List.nil_append, Read.bareStatement_cons, if_neg branch, if_neg back, if_neg stray]
      exact bind_eq_error.mpr (.inl failed)
theorem statement_refused {s : Span} {ts : List Token} {e : ParseError} (bound : ts.length < n + 1)
    (failed : Read.statement s ts = .error e) :
    Refused Read.statement OfStatement s e ts := by
  rw [Read.statement_eq] at failed
  have inner := error_of_bind_ok failed fun _ => ⟨_, rfl⟩
  refine (bareStatement_refused below bound inner).first Read.statement_eq ?_
  rintro us ⟨a, o, bare⟩
  exact .whole ⟨a, o, .bare bare⟩

/-! ### Statements one after the other -/

/-- A reader of statements, which goes on with another one at every token that `goes` holds of,
    refuses what it should if it does so at the other tokens and at the end. -/
theorem run_refused {α : Type} {R : Reader α} {ends : List Token → Prop} (goes : Token → Prop)
    (closes : Completes ends [])
    (stops : ∀ s ts e, (∀ t ∈ ts.head?, ¬ goes t) → R s ts = .error e → Refused R (Run ends) s e ts)
    (continues : ∀ s t ts e, goes t → (R s (t :: ts) = .error e ↔ Read.statement s (t :: ts) = .error e ∨
      ∃ a, Read.statement s (t :: ts) = .ok a ∧ R s a.2 = .error e))
    {s : Span} {ts : List Token} {e : ParseError} (bound : ts.length < n + 1) (failed : R s ts = .error e) :
    Refused R (Run ends) s e ts := by
  induction size : ts.length using Nat.strongRecOn generalizing ts with
  | _ m ih =>
    subst size
    by_cases first : ∀ t ∈ ts.head?, ¬ goes t
    · exact stops s ts e first failed
    push Not at first
    obtain ⟨t, front, goes⟩ := first
    obtain ⟨us, rfl⟩ := List.head?_eq_some_iff.mp front
    rcases (continues s t us e goes).mp failed with inner | ⟨⟨a, vs⟩, read, behind⟩
    · refine (statement_refused below bound inner).within [] ?_ fun s' ws e' same failed => ?_
      · rintro ws ⟨a, o, closing⟩
        have whole := Run.behind closes closing (fun r _ => .nil 1 r) (List.prefix_refl _) (.noRun closes)
        rwa [List.append_nil] at whole
      · obtain ⟨vs, rfl⟩ := List.head?_eq_some_iff.mp same
        exact (continues s' t vs e' goes).mpr (.inl failed)
    · have shorter : vs.length < (t :: us).length := Read.length_statement s read
      obtain ⟨used, o, split, closing, follows, steady⟩ := statement_steady read
      obtain ⟨u, ws, rfl, _⟩ := closing.starts
      obtain ⟨rfl, rfl⟩ := List.cons.inj split
      refine split ▸ (ih vs.length shorter (Nat.lt_trans shorter bound) behind rfl).into
        (fun us => Run.behind closes closing follows) fun s' us e' same failed => ?_
      exact (continues s' t _ e' goes).mpr (.inr ⟨_, steady s' us same, failed⟩)

theorem blockTail_refused {s : Span} {ts : List Token} {e : ParseError} (bound : ts.length < n + 1)
    (failed : Read.blockTail s ts = .error e) : Refused Read.blockTail (Run Brace) s e ts := by
  have closes : Completes Brace [] := .marks [.closeBlock] (by decide) ⟨_, rfl, Mark.token_is _⟩
  refine run_refused below (fun t => ¬ t.is .closeBlock ∧ t.kind ≠ .finish) closes ?_ ?_ bound failed
  · intro s ts e front failed
    cases ts with
    | nil =>
      rw [Read.blockTail_nil] at failed
      cases failed
      exact .finish (.noRun closes) (ofDelimiter_other _ _) rfl
    | cons t ts =>
      rw [Read.blockTail_cons] at failed
      split at failed
      · cases failed
      next unclosed =>
      split at failed
      · next kind =>
        cases failed
        refine .token [] (.noRun closes) (ofDelimiter_other t _) rfl fun s' us => ?_
        rw [List.nil_append, Read.blockTail_cons, if_neg unclosed, if_pos kind]
      · next kind => exact absurd ⟨unclosed, kind⟩ (front t rfl)
  · rintro s t ts e ⟨unclosed, kind⟩
    rw [Read.blockTail_cons, if_neg unclosed, if_neg kind, bind_eq_error]
    refine or_congr_right (exists_congr fun a => and_congr_right fun _ => ?_)
    rw [bind_eq_error]
    simp
theorem block_refused {s : Span} {ts : List Token} {e : ParseError} (bound : ts.length < n + 1)
    (failed : Read.block s ts = .error e) : Refused Read.block OfSomeBlock s e ts := by
  rw [Read.block_eq] at failed
  rcases bind_eq_error.mp failed with first | ⟨⟨t, us⟩, opening, behind⟩
  · refine expect_refused first [] (.marks [.openBlock, .closeBlock] (by decide) ⟨_, .empty⟩) ?_
    intro s' us e' _ failed
    exact (Read.block_eq ..).trans (bind_eq_error.mpr (.inl failed))
  obtain ⟨rfl, opens⟩ := expect_sound opening
  have inner := error_of_bind_ok behind fun _ => ⟨_, rfl⟩
  simp only [List.length_cons] at bound
  refine (blockTail_refused below (by omega) inner).within [t] ?_ fun s' us e' _ failed => ?_
  · rintro _ ⟨statements, ⟨u, rfl, closes⟩⟩
    exact .whole ⟨_, .mk opens statements closes⟩
  · refine (Read.block_eq ..).trans (bind_eq_error.mpr (.inr ⟨_, read_expect opens us, ?_⟩))
    exact bind_eq_error.mpr (.inl failed)

end

/-- Lists of any length are refused at the earliest token. -/
theorem refused_all (n : Nat) : RefusedBelow n := by
  induction n with
  | zero => exact fun s ts e bound => absurd bound (Nat.not_lt_zero _)
  | succ n ih =>
    intro s ts e bound
    exact ⟨fun p usual failed => expression_refused ih usual bound failed, block_refused ih bound⟩
theorem statements_refused {s : Span} {ts : List Token} {e : ParseError} (failed : Parse.statements s ts = .error e) :
    Refused Parse.statements (Run (· = [])) s e ts := by
  have closes : Completes (· = []) [] := .whole rfl
  refine run_refused (refused_all ts.length) (·.kind ≠ .finish) closes ?_ ?_ (Nat.lt_succ_self _) failed
  · intro s ts e front failed
    cases ts with
    | nil => cases (Read.statements_nil s).symm.trans failed
    | cons t ts =>
      rw [Read.statements_cons, if_pos (not_not.mp (front t rfl))] at failed
      cases failed
  · intro s t ts e kind
    rw [Read.statements_cons, if_neg kind, bind_eq_error]
    refine or_congr_right (exists_congr fun a => and_congr_right fun _ => ?_)
    rw [bind_eq_error]
    simp

end Grammar

/-! ### Programs -/

namespace Program
open Grammar

/-- Whether tokens with an end token at `stop` behind them are a program. -/
def Accepted (stop : Span) (ts : List Token) : Prop := ∃ p, ofTokens ts stop = .ok p

theorem ofTokens_refused {ts : List Token} {stop : Span} {e : ParseError} (failed : ofTokens ts stop = .error e) :
    Refused (fun s us => ofTokens us s) (Accepted stop) stop e ts := by
  have inner := error_of_bind_ok failed fun _ => ⟨_, rfl⟩
  refine (statements_refused inner).first (fun _ _ => rfl) ?_
  rintro _ ⟨statements, rfl⟩
  rw [List.append_nil]
  exact .whole ⟨_, bind_eq_ok.mpr ⟨_, statements.read_all, rfl⟩⟩
/-- The error `e` stands at token `k`, or at the end token if there are just `k` tokens. The tokens
    in front of it are the longest run that further tokens make a program of, the error blames it,
    and whatever tokens stand behind it, the error is the same. -/
structure EarliestAt (ts : List Token) (stop : Span) (e : ParseError) (k : Nat) : Prop where
  longest : IsGreatest {n | n ≤ ts.length ∧ Completes (Accepted stop) (ts.take n)} k
  blames : Blames (fun s us => ofTokens us s) e (ts.take k) (ts[k]?.getD (.finish stop))
  stable : k < ts.length → ∀ us s, us.take (k + 1) = ts.take (k + 1) → ofTokens us s = .error e

/-- Syntax errors are reported at the earliest token. -/
theorem error_at_earliest_token {ts : List Token} {stop : Span} {e : ParseError}
    (failed : ofTokens ts stop = .error e) : ∃ k, EarliestAt ts stop e k := by
  obtain ⟨before, rest, rfl, completes, blames, stable⟩ := ofTokens_refused failed
  have front : (before ++ rest).take before.length = before := List.take_left
  have next : (before ++ rest)[before.length]? = rest.head? := by
    rw [List.getElem?_append_right (Nat.le_refl _), Nat.sub_self, List.head?_eq_getElem?]
  have same : before.length < (before ++ rest).length → ∀ us s,
      us.take (before.length + 1) = (before ++ rest).take (before.length + 1) → ofTokens us s = .error e := by
    intro more us s agree
    cases rest with
    | nil => simp at more
    | cons t rest =>
      rw [← List.take_append_drop (before.length + 1) us, agree, List.take_length_add_append, List.append_assoc]
      exact stable t rfl s _
  refine ⟨before.length, ⟨⟨by simp, by rwa [front]⟩, ?_⟩, by rwa [front, next], same⟩
  -- A longer front has the refused token in it, so no tokens behind it help.
  rintro n ⟨bound, us, _, p, accepted⟩
  by_contra beyond
  have failed := same (by omega) ((before ++ rest).take n ++ us) stop ?_
  · cases failed.symm.trans accepted
  · rw [List.take_append_of_le_length (by rw [List.length_take]; omega), List.take_take, min_eq_left (by omega)]

set_option maxRecDepth 100000 in
/-- An equals sign behind a sum, which blames the sum. -/
theorem error_at_earliest_token_sum :
    ofTokens (Token.scan "x + y = z").tokens .origin = .error ⟨.assignmentTarget "(x + y)", ⟨⟨0, 0⟩, ⟨0, 4⟩⟩⟩ ∧
      ∃ k, EarliestAt (Token.scan "x + y = z").tokens .origin ⟨.assignmentTarget "(x + y)", ⟨⟨0, 0⟩, ⟨0, 4⟩⟩⟩ k := by
  have failed : ofTokens (Token.scan "x + y = z").tokens .origin =
      .error ⟨.assignmentTarget "(x + y)", ⟨⟨0, 0⟩, ⟨0, 4⟩⟩⟩ := by cbv
  exact ⟨failed, error_at_earliest_token failed⟩

end Program
end KoreanScript
