import Mathlib
import KoreanScript.Proofs.EndTokens

/-!
How far an expression goes on. The loop behind an expression goes round by round, and what
a round reads does not hang on the power that was asked for; this only decides where the
loop stops. So to ask for tighter operators cuts the expression short at one of its rounds,
and leaves of its tree what had been built until then: something on its left side.
-/
namespace KoreanScript

namespace BindingPower

/-- No operator binds less tightly than an assignment, and what is no operator does not bind at all. -/
theorem left_ofToken_eq_zero {t : Token} (below : (ofToken t).left < assignment.left) : (ofToken t).left = 0 := by
  unfold ofToken at below ⊢
  split at below
  · next kind =>
    rw [if_pos kind]
    unfold ofLexeme at below ⊢
    cases found : table.lookup t.value with
    | none => rfl
    | some p =>
      rw [found] at below
      obtain ⟨_, _, split, _⟩ := List.lookup_eq_some_iff.mp found
      have member : (t.value, p) ∈ table := by rw [split]; simp
      have bounded : ∀ entry ∈ table, assignment.left ≤ entry.2.left := by decide
      exact absurd below (Nat.not_lt.mpr (bounded _ member))
  · next kind =>
    rw [if_neg kind]
    rfl

end BindingPower

/-- `e.Spine d`: the expression `d` is `e`, or is come to from there by going to the left operand of
    an operator or to the callee of a call, any number of times. -/
inductive Expr.Spine : Expr → Expr → Prop
  | self (e : Expr) : Spine e e
  | left {op : InfixOperator} {l r d : Expr} {s : Span} : Spine l d → Spine (.binary op l r s) d
  | callee {f d : Expr} {es : List Expr} {s : Span} : Spine f d → Spine (.call f es s) d

theorem Expr.Spine.trans {c d e : Expr} (first : e.Spine d) (rest : d.Spine c) : e.Spine c := by
  induction first with
  | self e => exact rest
  | left _ ih => exact .left (ih rest)
  | callee _ ih => exact .callee (ih rest)
/-- `e.Beginning d`: the expression `d` is on the spine of `e`, or is the name that `e` assigns to. -/
inductive Expr.Beginning : Expr → Expr → Prop
  | spine {d e : Expr} : e.Spine d → Beginning e d
  | target {i : Identifier} {v : Expr} {s : Span} : Beginning (.assignment i v s) (.identifier i)

namespace Parse
open BindingPower (ofToken ofToken_of_is)

/-- Why the expression `e` read under the power `p` does not go on with the token behind it: that does
    not bind tightly enough, or is a group delimiter that makes no call. -/
inductive Halts (p : BindingPower) (e : Expr) (t : Token) : Prop
  | weak : (ofToken t).left ≤ p.right → Halts p e t
  | delimiter : t.kind = .groupDelimiter → t.value ≠ "(" → Halts p e t
  | uncallable : t.is .openGroup → e.isCallable = false → Halts p e t

/-- `Extends stop (d, ts) (e, rest)`: the token at the front of `ts` and what is read behind it make `e`
    of `d` and leave `rest`, whatever the power that was asked for. -/
inductive Extends (stop : Span) : Expr × List Token → Expr × List Token → Prop
  | call {f : Expr} {t : Token} {ts rest : List Token} {es : List Expr} {last : Span} : f.isCallable → t.is .openGroup →
    Read.sequence stop .closeGroup (Parse.expression stop .lowest) ts = .ok ((es, last), rest) →
    Extends stop (f, t :: ts) (.call f es (f.span.through last), rest)
  | assignment {i : Identifier} {v : Expr} {t : Token} {ts rest : List Token} : t.is .assignment →
    Read.expression stop .assignment ts = .ok (v, rest) →
    Extends stop (.identifier i, t :: ts) (.assignment i v (i.span.through v.span), rest)
  | binary {op : InfixOperator} {l r : Expr} {t : Token} {ts rest : List Token} : t.is (.ofInfix op) →
    Read.expression stop (ofToken t) ts = .ok (r, rest) →
    Extends stop (l, t :: ts) (.binary op l r (l.span.through r.span), rest)

variable {stop : Span} {p q : BindingPower} {d e : Expr} {t : Token} {ts us rest : List Token}

/-! ### One round -/

/-- A greater power stops wherever a smaller one does. -/
theorem Halts.mono (halts : Halts p e t) (raised : p.right ≤ q.right) : Halts q e t := by
  cases halts with
  | weak loose => exact .weak (Nat.le_trans loose raised)
  | delimiter kind other => exact .delimiter kind other
  | uncallable opens uncallable => exact .uncallable opens uncallable
/-- Nothing binds behind the end. -/
theorem Halts.finish (p : BindingPower) (e : Expr) (stop : Span) : Halts p e (.finish stop) := .weak (Nat.zero_le _)
theorem Halts.extend (halts : Halts p d t) (ts : List Token) : Read.extend stop p d (t :: ts) = .ok (d, t :: ts) := by
  rw [Read.extend_cons]
  split
  · rfl
  next binds =>
  cases halts with
  | weak loose => exact absurd loose binds
  | delimiter kind other =>
    have closed : ¬ t.is .openGroup := fun opens => other (Token.is_iff.mp opens).2
    rw [if_pos kind, if_neg fun both => closed both.1]
  | uncallable opens uncallable =>
    have kind : t.kind = .groupDelimiter := Token.kind_of_is opens
    rw [if_pos kind, if_neg fun both => Bool.eq_false_iff.mp uncallable both.2]
/-- The loop stops in front of a token, or goes on with the round that begins there. -/
theorem extend_cases (read : Read.extend stop p d (t :: ts) = .ok (e, rest)) :
    (Halts p d t ∧ e = d ∧ rest = t :: ts) ∨
      p.right < (ofToken t).left ∧ ∃ d' us, Extends stop (d, t :: ts) (d', us) ∧
        Read.extend stop p d' us = .ok (e, rest) := by
  rw [Read.extend_cons] at read
  split at read
  · next loose =>
    cases read
    exact .inl ⟨.weak loose, rfl, rfl⟩
  next binds =>
  split at read
  · next kind =>
    split at read
    · next call =>
      obtain ⟨⟨⟨es, last⟩, us⟩, list, behind⟩ := bind_eq_ok.mp read
      exact .inr ⟨Nat.not_le.mp binds, _, us, .call call.2 call.1 list, behind⟩
    · next other =>
      cases read
      refine .inl ⟨?_, rfl, rfl⟩
      by_cases opens : t.is .openGroup
      · exact .uncallable opens (Bool.eq_false_iff.mpr fun callable => other ⟨opens, callable⟩)
      · exact .delimiter kind fun value => opens (Token.is_iff.mpr ⟨kind, value⟩)
  next kind =>
  refine .inr ⟨Nat.not_le.mp binds, ?_⟩
  split at read
  · next assigns =>
    split at read
    · obtain ⟨⟨v, us⟩, value, behind⟩ := bind_eq_ok.mp read
      exact ⟨_, us, .assignment assigns value, behind⟩
    · cases read
  · split at read
    · cases read
    · next op lexeme =>
      have operator : t.kind = .operator := (BindingPower.kind_of_left_pos (by omega)).resolve_right kind
      have found : t.is (.ofInfix op) := Token.is_iff.mpr ⟨operator, InfixOperator.lexeme_of_ofLexeme? lexeme⟩
      obtain ⟨⟨r, us⟩, operand, behind⟩ := bind_eq_ok.mp read
      exact ⟨_, us, .binary found operand, behind⟩
/-- The loop goes round wherever the token that a round begins with binds tightly enough. -/
theorem Extends.extend (round : Extends stop (d, t :: ts) (e, us)) (binds : p.right < (ofToken t).left) :
    Read.extend stop p d (t :: ts) = Read.extend stop p e us := by
  cases round with
  | call callable opens list =>
    rw [ofToken_of_is opens] at binds
    exact Grammar.extend_call callable opens binds list
  | assignment assigns value =>
    rw [ofToken_of_is assigns] at binds
    exact Grammar.extend_assignment assigns binds value
  | binary found operand => exact Grammar.extend_infix found binds operand
theorem Extends.length_lt (round : Extends stop (d, ts) (e, us)) : us.length < ts.length := by
  cases round with
  | call _ _ list => exact Nat.lt_succ_of_lt ((progress.elements (by decide)).progress list)
  | assignment _ value => exact Nat.lt_succ_of_lt ((progress.expression _).progress value)
  | binary _ operand => exact Nat.lt_succ_of_lt ((progress.expression _).progress operand)

/-! ### The loop -/

/-- `Loop stop p e rest d ts`: under the power `p`, round by round from the expression `d` in front of
    `ts`, the loop comes to `e` in front of `rest` and stops there. -/
inductive Loop (stop : Span) (p : BindingPower) (e : Expr) (rest : List Token) : Expr → List Token → Prop
  | stops : Halts p e (rest.headD (.finish stop)) → Loop stop p e rest e rest
  | goesOn {d d' : Expr} {t : Token} {ts us : List Token} : p.right < (ofToken t).left →
    Extends stop (d, t :: ts) (d', us) → Loop stop p e rest d' us → Loop stop p e rest d (t :: ts)

theorem Loop.extend (loop : Loop stop p e rest d ts) : Read.extend stop p d ts = .ok (e, rest) := by
  induction loop with
  | stops halts =>
    cases rest with
    | nil => exact Read.extend_nil stop p e
    | cons t rest => exact halts.extend rest
  | goesOn binds round _ ih => exact (round.extend binds).trans ih
theorem loop_of_extend (read : Read.extend stop p d ts = .ok (e, rest)) : Loop stop p e rest d ts := by
  induction size : ts.length using Nat.strongRecOn generalizing ts d with
  | _ m ih =>
    subst size
    cases ts with
    | nil =>
      cases (Read.extend_nil stop p d).symm.trans read
      exact .stops (.finish p e stop)
    | cons t ts =>
      rcases extend_cases read with ⟨halts, rfl, rfl⟩ | ⟨binds, d', us, round, behind⟩
      · exact .stops halts
      · exact .goesOn binds round (ih us.length round.length_lt behind rfl)
theorem Loop.halts (loop : Loop stop p e rest d ts) : Halts p e (rest.headD (.finish stop)) := by
  induction loop with
  | stops halts => exact halts
  | goesOn _ _ _ ih => exact ih
theorem Loop.eq_of_halts (loop : Loop stop p e rest d ts) (halts : Halts p d (ts.headD (.finish stop))) : e = d := by
  cases loop.extend.symm.trans (Loop.stops halts).extend
  rfl
theorem halts_of_expression (read : Read.expression stop p ts = .ok (e, rest)) :
    Halts p e (rest.headD (.finish stop)) := by
  rw [Read.expression_eq] at read
  obtain ⟨_, _, behind⟩ := bind_eq_ok.mp read
  exact (loop_of_extend behind).halts
/-- The loop under a smaller power comes by where it stops under a greater one. -/
theorem Loop.comes_by (raised : p.right ≤ q.right) (loop : Loop stop p e rest d ts) :
    ∃ c us, Loop stop q c us d ts ∧ Loop stop p e rest c us := by
  induction loop with
  | stops halts => exact ⟨e, rest, .stops (halts.mono raised), .stops halts⟩
  | @goesOn d d' t ts us binds round behind ih =>
    by_cases loose : (ofToken t).left ≤ q.right
    · exact ⟨d, t :: ts, .stops (.weak loose), .goesOn binds round behind⟩
    · obtain ⟨c, vs, cut, more⟩ := ih
      exact ⟨c, vs, .goesOn (Nat.not_le.mp loose) round cut, more⟩
/-- An assignment is never gone on with: whatever its value did not take binds nothing or calls nothing. -/
theorem Halts.behind_assignment {i : Identifier} {v : Expr} {s : Span} (halts : Halts .assignment v t) :
    Halts p (.assignment i v s) t := by
  cases halts with
  | weak loose =>
    refine .weak ?_
    rw [BindingPower.left_ofToken_eq_zero (Nat.lt_succ_of_le loose)]
    exact Nat.zero_le _
  | delimiter kind other => exact .delimiter kind other
  | uncallable opens _ => exact .uncallable opens rfl
/-- What the loop makes of an expression begins with it. -/
theorem Loop.beginning (loop : Loop stop p e rest d ts) : e.Beginning d := by
  induction loop with
  | stops _ => exact .spine (.self e)
  | goesOn _ round behind begins =>
    cases round with
    | call _ _ _ =>
      cases begins with
      | spine spine => exact .spine (spine.trans (.callee (.self _)))
    | binary _ _ =>
      cases begins with
      | spine spine => exact .spine (spine.trans (.left (.self _)))
    | assignment _ value =>
      -- Where the value stopped, the loop stops, too.
      rw [behind.eq_of_halts (halts_of_expression value).behind_assignment]
      exact .target

/-! ### The main result -/

/-- To raise the power that is asked for only cuts an expression short. If the tokens `ts` begin with an
    expression `e` under the power `p`, they also do so under any `q` whose right power is no smaller: its
    tokens are the first of those of `e`, and its tree is `e` or a beginning of it. Behind it stands a
    token that binds no tighter than `q`, or a group delimiter that makes no call of it. -/
theorem expression_cut_short (stop : Span) (p q : BindingPower) (raised : p.right ≤ q.right) (ts rest : List Token)
    (e : Expr) (read : Read.expression stop p ts = .ok (e, rest)) :
    ∃ d us whole cut, Read.expression stop q ts = .ok (d, us) ∧ ts = whole ++ rest ∧ ts = cut ++ us ∧
      cut <+: whole ∧ e.Beginning d ∧ Halts q d (us.headD (.finish stop)) := by
  rw [Read.expression_eq] at read
  obtain ⟨⟨first, tail⟩, started, behind⟩ := bind_eq_ok.mp read
  obtain ⟨d, us, short, more⟩ := (loop_of_extend behind).comes_by raised
  have read' : Read.expression stop q ts = .ok (d, us) := by
    rw [Read.expression_eq]
    exact bind_eq_ok.mpr ⟨_, started, short.extend⟩
  obtain ⟨cut, _, split⟩ := (progress.expression q).front read'
  obtain ⟨others, _, split'⟩ := (progress.extend p d).front more.extend
  have whole : ts = (cut ++ others) ++ rest := by rw [List.append_assoc, ← split', ← split]
  exact ⟨d, us, cut ++ others, cut, read', whole, split, List.prefix_append cut others, more.beginning, short.halts⟩

/-- A product and what is added to it, cut short before the plus sign. -/
theorem expression_cut_short_sum :
    let name (s : String) : Token := ⟨.identifier, s, .origin⟩
    let tail : List Token := [⟨.operator, "+", .origin⟩, name "z"]
    let ts : List Token := [name "f", ⟨.groupDelimiter, "(", .origin⟩, name "x", ⟨.groupDelimiter, ")", .origin⟩,
      ⟨.operator, "*", .origin⟩, name "y"] ++ tail
    let var (s : String) : Expr := .identifier ⟨s, .origin⟩
    let d : Expr := .binary .times (.call (var "f") [var "x"] .origin) (var "y") .origin
    let e : Expr := .binary .plus d (var "z") .origin
    BindingPower.lowest.right ≤ BindingPower.summative.right ∧ Read.expression .origin .lowest ts = .ok (e, []) ∧
      Read.expression .origin .summative ts = .ok (d, tail) ∧ e.Beginning d ∧
      Halts .summative d ⟨.operator, "+", .origin⟩ := by
  intro name tail ts var d e
  have raised : BindingPower.lowest.right ≤ BindingPower.summative.right := by decide
  have read : Read.expression .origin .lowest ts = .ok (e, []) := by cbv
  have short : Read.expression .origin .summative ts = .ok (d, tail) := by cbv
  obtain ⟨c, us, whole, cut, same, _, _, _, begins, halts⟩ :=
    expression_cut_short .origin .lowest .summative raised ts [] e read
  cases same.symm.trans short
  exact ⟨raised, read, short, begins, halts⟩

end Parse
end KoreanScript
