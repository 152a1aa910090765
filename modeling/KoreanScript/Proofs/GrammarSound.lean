import KoreanScript.Proofs.Levels
import KoreanScript.Proofs.Reading

/-!
What the parser reads is a derivation. The reader of an expression keeps one
invariant around its loop: the expression so far stands on some level, and the
token behind it follows that level. The token then binds no tighter than the
level tolerates, so the expression can be its left operand.
-/
namespace KoreanScript.Grammar
open BindingPower (ofToken ofMark ofToken_of_is)

variable {stop : Span}

/-- What reading an expression off the front of `ts` derives. -/
def SoundExpression (stop : Span) (ts : List Token) : Prop :=
  ∀ p e rest, p.right < 80 → Read.expression stop p ts = .ok (e, rest) →
    ∃ used r, ts = used ++ rest ∧ Derives (.ofPower p.right) used e r ∧ Follows p.right r rest
/-- What reading a block off the front of `ts` derives. -/
def SoundBlock (stop : Span) (ts : List Token) : Prop :=
  ∀ b rest, Read.block stop ts = .ok (b, rest) → ∃ used, ts = used ++ rest ∧ OfBlock used b
/-- What reading a statement off the front of `ts` derives. -/
def SoundStatement (stop : Span) (ts : List Token) : Prop :=
  ∀ s rest, Read.statement stop ts = .ok (s, rest) →
    ∃ used o, ts = used ++ rest ∧ Closing used s o ∧ ∀ r ∈ o, Follows 1 r rest

theorem expect_sound {m : Mark} {ts rest : List Token} {t : Token}
    (read : Read.expect stop m ts = .ok (t, rest)) : ts = t :: rest ∧ t.is m := by
  cases ts with
  | nil => simp [Read.expect_nil] at read
  | cons u us =>
    rw [Read.expect_cons] at read
    split at read
    · next found =>
      simp only [Except.ok.injEq, Prod.mk.injEq] at read
      obtain ⟨rfl, rfl⟩ := read
      exact ⟨rfl, found⟩
    · cases read
theorem parameter_sound {ts rest : List Token} {i : Identifier}
    (read : Read.parameter stop ts = .ok (i, rest)) :
    ∃ t, ts = t :: rest ∧ t.kind = .identifier ∧ i = ⟨t.value, t.span⟩ := by
  cases ts with
  | nil => simp [Read.parameter_nil] at read
  | cons t us =>
    rw [Read.parameter_cons] at read
    split at read
    · next named =>
      simp only [Except.ok.injEq, Prod.mk.injEq] at read
      obtain ⟨rfl, rfl⟩ := read
      exact ⟨t, rfl, named, rfl⟩
    · cases read

/-! ### Sequences -/

section
variable {α : Type} {close : Mark} {item : (ts : List Token) → Parse.Answer α ts.length}

/-- Items are one item and the closing mark, or one item, a comma and more items. -/
theorem items_cases {ts rest : List Token} {as : List α} {s : Span}
    (read : Read.items stop close item ts = .ok ((as, s), rest)) :
    ∃ a t us, Parse.plain (item ts) = .ok (a, t :: us) ∧
      ((t.is close ∧ as = [a] ∧ s = t.span ∧ rest = us) ∨
        (t.is .comma ∧ ∃ bs, as = a :: bs ∧ Read.items stop close item us = .ok ((bs, s), rest))) := by
  rw [Read.items_eq] at read
  obtain ⟨⟨a, us⟩, first, read⟩ := bind_eq_ok.mp read
  cases us with
  | nil => cases read
  | cons t us =>
    refine ⟨a, t, us, first, ?_⟩
    simp only at read
    split at read
    · next closed =>
      simp only [Except.ok.injEq, Prod.mk.injEq] at read
      obtain ⟨⟨rfl, rfl⟩, rfl⟩ := read
      exact .inl ⟨closed, rfl, rfl, rfl⟩
    · split at read
      · next more =>
        obtain ⟨⟨⟨bs, last⟩, vs⟩, tail, read⟩ := bind_eq_ok.mp read
        simp only [Except.ok.injEq, Prod.mk.injEq] at read
        obtain ⟨⟨rfl, rfl⟩, rfl⟩ := read
        exact .inr ⟨more, bs, rfl, tail⟩
      · cases read
/-- A sequence is the closing mark alone, or items. -/
theorem sequence_cases {ts rest : List Token} {as : List α} {s : Span}
    (read : Read.sequence stop close item ts = .ok ((as, s), rest)) :
    (∃ t, ts = t :: rest ∧ t.is close ∧ as = [] ∧ s = t.span) ∨
      Read.items stop close item ts = .ok ((as, s), rest) := by
  cases ts with
  | nil => exact .inr (Read.sequence_nil .. ▸ read)
  | cons t us =>
    rw [Read.sequence_cons] at read
    split at read
    · next closed =>
      simp only [Except.ok.injEq, Prod.mk.injEq] at read
      obtain ⟨⟨rfl, rfl⟩, rfl⟩ := read
      exact .inl ⟨t, rfl, closed, rfl, rfl⟩
    · exact .inr read

end

theorem names_sound {close : Mark} {ts rest : List Token} {is : List Identifier} {s : Span}
    (read : Read.items stop close (Parse.parameter stop) ts = .ok ((is, s), rest)) :
    ∃ used, ts = used ++ rest ∧ Names close used is s := by
  induction size : ts.length using Nat.strongRecOn generalizing ts is with
  | _ n ih =>
    subst size
    obtain ⟨i, u, us, first, tail⟩ := items_cases read
    obtain ⟨t, rfl, named, rfl⟩ := parameter_sound first
    rcases tail with ⟨closed, rfl, rfl, rfl⟩ | ⟨more, js, rfl, behind⟩
    · exact ⟨[t, u], rfl, .last named closed⟩
    · obtain ⟨used, rfl, names⟩ := ih us.length (by simp only [List.length_cons]; omega) behind rfl
      exact ⟨t :: u :: used, rfl, .more named more names⟩
theorem parameters_sound {ts rest : List Token} {is : List Identifier} {s : Span}
    (read : Read.sequence stop .closeGroup (Parse.parameter stop) ts = .ok ((is, s), rest)) :
    ∃ used, ts = used ++ rest ∧ Parameters used is := by
  rcases sequence_cases read with ⟨t, rfl, closed, rfl, rfl⟩ | read
  · exact ⟨[t], rfl, .none closed⟩
  · obtain ⟨used, rfl, names⟩ := names_sound read
    exact ⟨used, rfl, .some names⟩

/-! ### Expressions

Everything below is shown of a list of tokens under the hypothesis that shorter
lists are read as derivations. -/

/-- Reading under the lowest power derives an expression of the loosest level. -/
theorem SoundExpression.lowest {ts rest : List Token} {e : Expr} (sound : SoundExpression stop ts)
    (read : Read.expression stop .lowest ts = .ok (e, rest)) :
    ∃ used r, ts = used ++ rest ∧ Derives .expression used e r ∧ Follows 1 r rest :=
  sound .lowest e rest (by decide) read

theorem items_sound {n : Nat} (ih : ∀ us, us.length < n → SoundExpression stop us) {close : Mark}
    {ts rest : List Token} (bound : ts.length < n) {es : List Expr} {s : Span}
    (read : Read.items stop close (Parse.expression stop .lowest) ts = .ok ((es, s), rest)) :
    ∃ used, ts = used ++ rest ∧ Items close used es s := by
  induction size : ts.length using Nat.strongRecOn generalizing ts es with
  | _ m again =>
    subst size
    obtain ⟨e, t, us, first, tail⟩ := items_cases read
    obtain ⟨used, r, rfl, derived, _⟩ := (ih ts bound).lowest first
    rcases tail with ⟨closed, rfl, rfl, rfl⟩ | ⟨more, ds, rfl, behind⟩
    · exact ⟨used ++ [t], by simp, .last derived closed⟩
    · simp only [List.length_append, List.length_cons] at bound
      have shorter : us.length < (used ++ t :: us).length := by
        simp only [List.length_append, List.length_cons]
        omega
      obtain ⟨used', rfl, items⟩ := again us.length shorter (by omega) behind rfl
      exact ⟨used ++ t :: used', by simp, .more derived more items⟩
theorem elements_sound {n : Nat} (ih : ∀ us, us.length < n → SoundExpression stop us) {close : Mark}
    {ts rest : List Token} (bound : ts.length < n) {es : List Expr} {s : Span}
    (read : Read.sequence stop close (Parse.expression stop .lowest) ts = .ok ((es, s), rest)) :
    ∃ used, ts = used ++ rest ∧ Elements close used es s := by
  rcases sequence_cases read with ⟨t, rfl, closed, rfl, rfl⟩ | read
  · exact ⟨[t], rfl, .none closed⟩
  · obtain ⟨used, rfl, items⟩ := items_sound ih bound read
    exact ⟨used, rfl, .some items⟩
theorem entry_sound {n : Nat} (ih : ∀ us, us.length < n → SoundExpression stop us)
    {ts rest : List Token} (bound : ts.length < n) {k v : Expr}
    (read : Read.entry stop ts = .ok ((k, v), rest)) :
    ∃ used t used' q r, ts = used ++ t :: (used' ++ rest) ∧ Derives .expression used k q ∧
      t.is .colon ∧ Derives .expression used' v r := by
  rw [Read.entry_eq] at read
  obtain ⟨⟨k', us⟩, key, read⟩ := bind_eq_ok.mp read
  obtain ⟨⟨t, vs⟩, colon, read⟩ := bind_eq_ok.mp read
  obtain ⟨⟨v', ws⟩, value, read⟩ := bind_eq_ok.mp read
  simp only [Except.ok.injEq, Prod.mk.injEq] at read
  obtain ⟨⟨rfl, rfl⟩, rfl⟩ := read
  obtain ⟨used, q, rfl, derived, _⟩ := (ih ts bound).lowest key
  obtain ⟨rfl, between⟩ := expect_sound colon
  simp only [List.length_append, List.length_cons] at bound
  obtain ⟨used', r, rfl, derived', _⟩ := (ih vs (by omega)).lowest value
  exact ⟨used, t, used', q, r, rfl, derived, between, derived'⟩
theorem pairs_sound {n : Nat} (ih : ∀ us, us.length < n → SoundExpression stop us)
    {ts rest : List Token} (bound : ts.length < n) {es : List (Expr × Expr)} {s : Span}
    (read : Read.items stop .closeList (Parse.entry stop) ts = .ok ((es, s), rest)) :
    ∃ used, ts = used ++ rest ∧ Pairs used es s := by
  induction size : ts.length using Nat.strongRecOn generalizing ts es with
  | _ m again =>
    subst size
    obtain ⟨⟨k, v⟩, u, us, first, tail⟩ := items_cases read
    obtain ⟨used, t, used', q, r, rfl, key, between, value⟩ := entry_sound ih bound first
    rcases tail with ⟨closed, rfl, rfl, rfl⟩ | ⟨more, ds, rfl, behind⟩
    · exact ⟨used ++ t :: (used' ++ [u]), by simp, .last key between value closed⟩
    · simp only [List.length_append, List.length_cons] at bound
      have shorter : us.length < (used ++ t :: (used' ++ u :: us)).length := by
        simp only [List.length_append, List.length_cons]
        omega
      obtain ⟨used'', rfl, pairs⟩ := again us.length shorter (by omega) behind rfl
      exact ⟨used ++ t :: (used' ++ u :: used''), by simp, .more key between value more pairs⟩
theorem entries_sound {n : Nat} (ih : ∀ us, us.length < n → SoundExpression stop us)
    {ts rest : List Token} (bound : ts.length < n) {es : List (Expr × Expr)} {s : Span}
    (read : Read.sequence stop .closeList (Parse.entry stop) ts = .ok ((es, s), rest)) :
    ∃ used, ts = used ++ rest ∧ Entries used es s := by
  rcases sequence_cases read with ⟨t, rfl, closed, rfl, rfl⟩ | read
  · exact ⟨[t], rfl, .none closed⟩
  · obtain ⟨used, rfl, pairs⟩ := pairs_sound ih bound read
    exact ⟨used, rfl, .some pairs⟩

/-- Reading the start of an expression derives a prefixed expression or an operand. -/
def SoundStart (ts : List Token) (e : Expr) (rest : List Token) : Prop :=
  ∃ used l r, ts = used ++ rest ∧ Derives l used e r ∧ Level.prefixed.rank ≤ l.rank ∧
    Follows l.cap r rest
/-- Operands tolerate whatever stands behind them. -/
theorem SoundStart.of_primary {ts rest : List Token} {e : Expr} (used : List Token)
    (split : ts = used ++ rest) (derived : Derives .primary used e e) : SoundStart ts e rest :=
  ⟨used, .primary, e, split, derived, by decide, .of_call_le (by decide) _ _⟩

theorem opened_sound {t : Token} {ts rest : List Token} {e : Expr}
    (ih : ∀ us, us.length ≤ ts.length → SoundExpression stop us ∧ SoundBlock stop us)
    (read : Read.opened stop t ts = .ok (e, rest)) : SoundStart (t :: ts) e rest := by
  have shorter : ∀ us, us.length < ts.length + 1 → SoundExpression stop us :=
    fun us less => (ih us (by omega)).1
  unfold Read.opened at read
  split at read
  · next first =>
    obtain ⟨⟨u, us⟩, opening, read⟩ := bind_eq_ok.mp read
    obtain ⟨⟨⟨is, s⟩, vs⟩, names, read⟩ := bind_eq_ok.mp read
    obtain ⟨⟨b, ws⟩, body, read⟩ := bind_eq_ok.mp read
    simp only [Except.ok.injEq, Prod.mk.injEq] at read
    obtain ⟨rfl, rfl⟩ := read
    obtain ⟨rfl, opens⟩ := expect_sound opening
    obtain ⟨used, rfl, parameters⟩ := parameters_sound names
    have shorter : vs.length ≤ (u :: (used ++ vs)).length := by
      simp only [List.length_append, List.length_cons]
      omega
    obtain ⟨used', rfl, block⟩ := (ih vs shorter).2 b ws body
    exact .of_primary (t :: u :: (used ++ used')) (by simp)
      (.function first opens parameters block)
  split at read
  · next first =>
    obtain ⟨⟨d, us⟩, inner, read⟩ := bind_eq_ok.mp read
    obtain ⟨⟨u, vs⟩, closing, read⟩ := bind_eq_ok.mp read
    simp only [Except.ok.injEq, Prod.mk.injEq] at read
    obtain ⟨rfl, rfl⟩ := read
    obtain ⟨used, r, rfl, derived, _⟩ := (shorter ts (by omega)).lowest inner
    obtain ⟨rfl, closes⟩ := expect_sound closing
    exact .of_primary (t :: (used ++ [u])) (by simp) (.group first derived closes)
  split at read
  · next first =>
    cases ts with
    | nil => cases read
    | cons u us =>
      simp only at read
      split at read
      · next marked =>
        obtain ⟨⟨⟨es, s⟩, vs⟩, list, read⟩ := bind_eq_ok.mp read
        simp only [Except.ok.injEq, Prod.mk.injEq] at read
        obtain ⟨rfl, rfl⟩ := read
        obtain ⟨used, rfl, entries⟩ := entries_sound shorter (by simp only [List.length_cons]; omega) list
        exact .of_primary (t :: u :: used) rfl (.table first marked entries)
      · obtain ⟨⟨⟨es, s⟩, vs⟩, list, read⟩ := bind_eq_ok.mp read
        simp only [Except.ok.injEq, Prod.mk.injEq] at read
        obtain ⟨rfl, rfl⟩ := read
        obtain ⟨used, split, elements⟩ := elements_sound shorter (by simp) list
        exact .of_primary (t :: used) (by simp [split]) (.list first elements)
  · cases read
theorem start_sound {ts rest : List Token} {e : Expr}
    (ih : ∀ us, us.length < ts.length → SoundExpression stop us ∧ SoundBlock stop us)
    (read : Read.start stop ts = .ok (e, rest)) : SoundStart ts e rest := by
  cases ts with
  | nil => simp [Read.start_nil] at read
  | cons t ts =>
    rw [Read.start_cons] at read
    split at read
    · next kind =>
      split at read
      · next x value =>
        cases read
        exact .of_primary [t] rfl (.number kind value)
      · cases read
    · next kind =>
      split at read
      · next b value =>
        cases read
        exact .of_primary [t] rfl (.boolean kind (Word.eq_of_toBool? value))
      · cases read
    · next kind =>
      cases read
      exact .of_primary [t] rfl (.string kind)
    · next kind =>
      cases read
      exact .of_primary [t] rfl (.identifier kind)
    · next kind =>
      split at read
      · cases read
      · next op lexeme =>
        obtain ⟨⟨d, us⟩, inner, read⟩ := bind_eq_ok.mp read
        cases read
        obtain ⟨used, r, rfl, derived, follows⟩ :=
          (ih ts (by simp)).1 .leading d rest (by decide) inner
        have leads : t.is (.ofPrefix op) :=
          Token.is_iff.mpr ⟨kind, PrefixOperator.lexeme_of_ofLexeme? lexeme⟩
        exact ⟨t :: used, .prefixed, r, rfl, .lead leads derived, by decide, follows⟩
    · exact opened_sound (fun us le => ih us (by simp only [List.length_cons]; omega)) read

/-! ### The loop -/

/-- The operators by the levels that they make. -/
theorem operator_cases (op : InfixOperator) :
    op ∈ comparisons ∨ op ∈ summatives ∨ op ∈ productives := by
  cases op <;> decide
/-- An expression with an operator and a right operand behind it is an expression of the
    operator's level, which tolerates what the right operand does. -/
theorem Derives.binary {l : Level} {ts us : List Token} {t : Token} {d e q r : Expr}
    {op : InfixOperator} (left : Derives l ts d q) (found : t.is (.ofInfix op))
    (tolerated : (ofToken t).left ≤ l.cap)
    (right : Derives (.ofPower (ofToken t).right) us e r) :
    ∃ m : Level, Derives m (ts ++ t :: us) (.binary op d e (d.span.through e.span)) r ∧
      m.cap = (ofToken t).right ∧ m.floor = (ofToken t).left := by
  rw [ofToken_of_is found] at tolerated right ⊢
  rcases operator_cases op with member | member | member
  · rw [BindingPower.ofMark_comparison member] at tolerated right ⊢
    have sum : Level.sum.rank ≤ l.rank := by revert tolerated; cases l <;> decide
    exact ⟨.comparison, .compare (left.weaken sum) member found right, rfl, rfl⟩
  · rw [BindingPower.ofMark_summative member] at tolerated right ⊢
    have sum : Level.sum.rank ≤ l.rank := by revert tolerated; cases l <;> decide
    exact ⟨.sum, .add (left.weaken sum) member found right, rfl, rfl⟩
  · rw [BindingPower.ofMark_productive member] at tolerated right ⊢
    have product : Level.product.rank ≤ l.rank := by revert tolerated; cases l <;> decide
    exact ⟨.product, .multiply (left.weaken product) member found right, rfl, rfl⟩

/-- The invariant of the loop under the right power `n`: the expression `d` so far stands on a
    level under which it would be read whole, and the tokens behind it follow the level. -/
def Reached (n : Nat) (before : List Token) (d q : Expr) (ts : List Token) : Prop :=
  ∃ l, Derives l before d q ∧ (Level.ofPower n).rank ≤ l.rank ∧ Follows l.cap q ts

theorem Reached.call {n : Nat} {l : Level} {before used us : List Token} {t : Token} {d q : Expr} {es : List Expr}
    {s : Span} (derived : Derives l before d q) (callable : d.isCallable) (opens : t.is .openGroup)
    (elements : Elements .closeGroup used es s) :
    Reached n (before ++ t :: used) (.call d es (d.span.through s)) (.call d es (d.span.through s)) us := by
  obtain ⟨callee, rfl⟩ := derived.of_callable callable
  have tight : (Level.ofPower n).rank ≤ Level.call.rank :=
    Nat.le_trans (Level.rank_ofPower_le_prefixed n) (by decide)
  exact ⟨.call, .call callee callable opens elements, tight, .of_call_le (by decide) _ _⟩
theorem Reached.assign {n : Nat} {l : Level} {before used us : List Token} {t : Token} {i : Identifier}
    {q e r : Expr} (derived : Derives l before (.identifier i) q) (assigns : t.is .assignment) (below : n < 31)
    (right : Derives (.ofPower BindingPower.assignment.right) used e r)
    (follows : Follows BindingPower.assignment.right r us) :
    Reached n (before ++ t :: used) (.assignment i e (i.span.through e.span)) r us :=
  ⟨.expression, .assign (derived.target rfl) assigns right, Level.rank_ofPower_le below, follows⟩
theorem Reached.binary {n : Nat} {l : Level} {before used us : List Token} {t : Token} {op : InfixOperator}
    {d q e r : Expr} (derived : Derives l before d q) (found : t.is (.ofInfix op))
    (tolerated : (ofToken t).left ≤ l.cap) (binds : n < (ofToken t).left)
    (right : Derives (.ofPower (ofToken t).right) used e r) (follows : Follows (ofToken t).right r us) :
    Reached n (before ++ t :: used) (.binary op d e (d.span.through e.span)) r us := by
  obtain ⟨m, whole, cap, floor⟩ := derived.binary found tolerated right
  refine ⟨m, whole, Level.rank_ofPower_le ?_, ?_⟩
  · rwa [floor]
  · rwa [cap]
/-- The operand at the right end of an expression is callable only if all of the expression is. -/
theorem not_call_of_follows {l : Level} {ts us : List Token} {t : Token} {d q : Expr} (derived : Derives l ts d q)
    (follows : Follows l.cap q (t :: us)) (other : ¬ (t.is .openGroup ∧ d.isCallable)) :
    ¬ (t.is .openGroup ∧ q.isCallable) := by
  rw [follows_cons] at follows
  rcases follows with tolerated | ⟨_, apart⟩
  · rintro ⟨opens, callable⟩
    rw [ofToken_of_is opens] at tolerated
    have tight : Level.call.rank ≤ l.rank := by revert tolerated; cases l <;> decide
    exact other ⟨opens, derived.operand_eq tight ▸ callable⟩
  · exact apart

/-- The loop stops before what follows the expression, or goes on behind a larger one. -/
theorem extend_step {p : BindingPower} {before ts rest : List Token} {t : Token} {d e q : Expr}
    (sound : ∀ us, us.length ≤ ts.length → SoundExpression stop us)
    (reached : Reached p.right before d q (t :: ts))
    (read : Read.extend stop p d (t :: ts) = .ok (e, rest)) :
    (Derives (.ofPower p.right) before e q ∧ rest = t :: ts ∧ Follows p.right q rest) ∨
      ∃ used us d' r, ts = used ++ us ∧ Reached p.right (before ++ t :: used) d' r us ∧
        Read.extend stop p d' us = .ok (e, rest) := by
  obtain ⟨l, derived, whole, follows⟩ := reached
  rw [Read.extend_cons] at read
  split at read
  · next weak =>
    cases read
    exact .inl ⟨derived.weaken whole, rfl, follows_cons.mpr (.inl weak)⟩
  next binds =>
  split at read
  · next kind =>
    split at read
    · next call =>
      obtain ⟨⟨⟨es, s⟩, us⟩, list, behind⟩ := bind_eq_ok.mp read
      obtain ⟨used, rfl, elements⟩ :=
        elements_sound (n := ts.length + 1) (fun vs lt => sound vs (by omega)) (by omega) list
      exact .inr ⟨used, us, _, _, rfl, .call derived call.2 call.1 elements, behind⟩
    · next other =>
      cases read
      have apart := not_call_of_follows derived follows other
      exact .inl ⟨derived.weaken whole, rfl, follows_cons.mpr (.inr ⟨kind, apart⟩)⟩
  next kind =>
  split at read
  · next assigns =>
    rw [ofToken_of_is assigns] at binds
    split at read
    · next i =>
      obtain ⟨⟨value, us⟩, inner, behind⟩ := bind_eq_ok.mp read
      obtain ⟨used, r, rfl, right, follows⟩ :=
        sound ts (Nat.le_refl _) .assignment value us (by decide) inner
      exact .inr ⟨used, us, _, r, rfl, .assign derived assigns (Nat.not_le.mp binds) right follows, behind⟩
    · cases read
  · split at read
    · cases read
    · next op lexeme =>
      have operator : t.kind = .operator :=
        (BindingPower.kind_of_left_pos (by omega)).resolve_right kind
      have found : t.is (.ofInfix op) :=
        Token.is_iff.mpr ⟨operator, InfixOperator.lexeme_of_ofLexeme? lexeme⟩
      have tolerated : (ofToken t).left ≤ l.cap := by
        rcases follows_cons.mp follows with tolerated | ⟨group, _⟩
        · exact tolerated
        · exact absurd group kind
      have bounded : (ofToken t).right < 80 := by
        rw [ofToken_of_is found]
        cases op <;> decide
      obtain ⟨⟨right, us⟩, inner, behind⟩ := bind_eq_ok.mp read
      obtain ⟨used, r, rfl, right, follows⟩ :=
        sound ts (Nat.le_refl _) (ofToken t) right us bounded inner
      exact .inr ⟨used, us, _, r, rfl,
        .binary derived found tolerated (Nat.not_le.mp binds) right follows, behind⟩
/-- The loop derives an expression of the level that its power asks for. -/
theorem extend_sound {p : BindingPower} {before ts rest : List Token} {d e q : Expr}
    (ih : ∀ us, us.length < ts.length → SoundExpression stop us)
    (reached : Reached p.right before d q ts) (read : Read.extend stop p d ts = .ok (e, rest)) :
    ∃ used r, ts = used ++ rest ∧ Derives (.ofPower p.right) (before ++ used) e r ∧
      Follows p.right r rest := by
  induction size : ts.length using Nat.strongRecOn generalizing before ts d q with
  | _ m again =>
    subst size
    cases ts with
    | nil =>
      obtain ⟨l, derived, whole, _⟩ := reached
      rw [Read.extend_nil] at read
      cases read
      exact ⟨[], q, rfl, by simpa using derived.weaken whole, .nil _ _⟩
    | cons t ts =>
      have sound : ∀ us, us.length ≤ ts.length → SoundExpression stop us :=
        fun us le => ih us (Nat.lt_succ_of_le le)
      rcases extend_step sound reached read with
        ⟨derived, rfl, follows⟩ | ⟨used, us, d', r, rfl, next, behind⟩
      · exact ⟨[], q, rfl, by simpa using derived, follows⟩
      · have shorter : us.length < (t :: (used ++ us)).length := by
          simp only [List.length_cons, List.length_append]
          omega
        have less : ∀ vs, vs.length < us.length → SoundExpression stop vs :=
          fun vs lt => ih vs (Nat.lt_trans lt shorter)
        obtain ⟨used', r, rfl, derived, follows⟩ := again us.length shorter less next behind rfl
        exact ⟨t :: (used ++ used'), r, by simp, by simpa using derived, follows⟩
theorem expression_sound {ts : List Token}
    (ih : ∀ us, us.length < ts.length → SoundExpression stop us ∧ SoundBlock stop us) :
    SoundExpression stop ts := by
  intro p e rest bounded read
  rw [Read.expression_eq] at read
  obtain ⟨⟨d, us⟩, first, behind⟩ := bind_eq_ok.mp read
  have shorter : us.length < ts.length := Parse.length_of_plain first
  obtain ⟨before, l, r, rfl, derived, tight, follows⟩ := start_sound ih first
  have whole : (Level.ofPower p.right).rank ≤ l.rank :=
    Nat.le_trans (Level.rank_ofPower_le_prefixed _) tight
  obtain ⟨used, r, rfl, derived, follows⟩ :=
    extend_sound (fun vs less => (ih vs (by omega)).1) ⟨l, derived, whole, follows⟩ behind
  exact ⟨before ++ used, r, by simp, derived, follows⟩

/-! ### Statements -/

theorem bareStatement_sound {ts rest : List Token} {s : Statement}
    (ih : ∀ us, us.length < ts.length → SoundExpression stop us ∧ SoundBlock stop us)
    (read : Read.bareStatement stop ts = .ok (s, rest)) :
    ∃ used o, ts = used ++ rest ∧ Bare used s o ∧ ∀ r ∈ o, Follows 1 r rest := by
  cases ts with
  | nil => simp [Read.bareStatement_nil] at read
  | cons t ts =>
    rw [Read.bareStatement_cons] at read
    split at read
    · next first =>
      obtain ⟨⟨p, us⟩, predicate, read⟩ := bind_eq_ok.mp read
      obtain ⟨⟨b, vs⟩, consequence, behind⟩ := bind_eq_ok.mp read
      obtain ⟨used, r, rfl, derived, _⟩ := (ih ts (by simp)).1.lowest predicate
      have shorter : us.length < (t :: (used ++ us)).length := by
        simp only [List.length_append, List.length_cons]
        omega
      obtain ⟨used', rfl, block⟩ := (ih us shorter).2 b vs consequence
      cases vs with
      | nil =>
        cases behind
        exact ⟨t :: (used ++ used'), none, by simp, .branch first derived block, by simp⟩
      | cons u vs =>
        simp only at behind
        split at behind
        · next other =>
          obtain ⟨⟨c, ws⟩, alternative, behind⟩ := bind_eq_ok.mp behind
          cases behind
          have shorter : vs.length < (t :: (used ++ (used' ++ u :: vs))).length := by
            simp only [List.length_append, List.length_cons]
            omega
          obtain ⟨used'', rfl, block'⟩ := (ih vs shorter).2 c ws alternative
          exact ⟨t :: (used ++ (used' ++ u :: used'')), none, by simp,
            .branchElse first derived block other block', by simp⟩
        · cases behind
          exact ⟨t :: (used ++ used'), none, by simp, .branch first derived block, by simp⟩
    split at read
    · next first =>
      obtain ⟨⟨e, us⟩, inner, behind⟩ := bind_eq_ok.mp read
      cases behind
      obtain ⟨used, r, rfl, derived, follows⟩ := (ih ts (by simp)).1.lowest inner
      exact ⟨t :: used, some r, rfl, .giveBack first derived, by simpa using follows⟩
    split at read
    · cases read
    · obtain ⟨⟨e, us⟩, inner, behind⟩ := bind_eq_ok.mp read
      cases behind
      obtain ⟨used, r, split, derived, follows⟩ := (expression_sound ih).lowest inner
      exact ⟨used, some r, split, .expression derived, by simpa using follows⟩
theorem statement_sound {ts : List Token}
    (ih : ∀ us, us.length < ts.length → SoundExpression stop us ∧ SoundBlock stop us) :
    SoundStatement stop ts := by
  intro s rest read
  rw [Read.statement_eq] at read
  obtain ⟨⟨s, us⟩, first, behind⟩ := bind_eq_ok.mp read
  cases behind
  obtain ⟨used, o, rfl, bare, follows⟩ := bareStatement_sound ih first
  cases us with
  | nil => exact ⟨used, o, rfl, .bare bare, follows⟩
  | cons t us =>
    simp only [Parse.skipSemicolon]
    split
    · next closed => exact ⟨used ++ [t], none, by simp, .closed bare closed, by simp⟩
    · exact ⟨used, o, rfl, .bare bare, follows⟩

/-- What follows an open statement does not continue it. -/
theorem not_continues_of_follows {r : Expr} {t : Token} {ts : List Token} (follows : Follows 1 r (t :: ts)) :
    ¬ Continues r t := by
  rw [follows_cons] at follows
  rintro (found | found | ⟨opens, callable⟩)
  · rw [ofToken_of_is found, Token.kind_of_is found] at follows
    exact absurd (follows.imp_right And.left) (by decide)
  · rw [ofToken_of_is found, Token.kind_of_is found] at follows
    exact absurd (follows.imp_right And.left) (by decide)
  · rw [ofToken_of_is opens] at follows
    rcases follows with weak | ⟨_, apart⟩
    · revert weak; decide
    · exact apart ⟨opens, callable⟩
theorem Statements.cons_of_follows {ts us rest : List Token} {s : Statement} {o : Option Expr}
    {ss : List Statement} (closing : Closing ts s o) (statements : Statements us ss)
    (follows : ∀ r ∈ o, Follows 1 r (us ++ rest)) : Statements (ts ++ us) (s :: ss) := by
  refine .cons closing statements ?_
  intro r last t front
  cases us with
  | nil => simp at front
  | cons u us =>
    simp only [List.head?_cons, Option.mem_def, Option.some.injEq] at front
    subst front
    exact not_continues_of_follows (follows r last)

theorem blockTail_sound {n : Nat} (sound : ∀ us, us.length < n → SoundStatement stop us)
    {ts rest : List Token} (bound : ts.length < n) {ss : List Statement} {s : Span}
    (read : Read.blockTail stop ts = .ok ((ss, s), rest)) :
    ∃ used t, ts = used ++ t :: rest ∧ Statements used ss ∧ t.is .closeBlock ∧ s = t.span := by
  induction size : ts.length using Nat.strongRecOn generalizing ts ss with
  | _ n ih =>
    subst size
    cases ts with
    | nil => simp [Read.blockTail_nil] at read
    | cons t ts =>
      rw [Read.blockTail_cons] at read
      split at read
      · next closes =>
        cases read
        exact ⟨[], t, rfl, .nil, closes, rfl⟩
      split at read
      · cases read
      · obtain ⟨⟨s, us⟩, first, read⟩ := bind_eq_ok.mp read
        obtain ⟨⟨⟨ss, last⟩, vs⟩, tail, behind⟩ := bind_eq_ok.mp read
        cases behind
        have shorter := Read.length_statement stop first
        obtain ⟨used, o, split, closing, follows⟩ := sound _ bound s us first
        obtain ⟨used', u, rfl, statements, closes, rfl⟩ := ih us.length shorter (by omega) tail rfl
        exact ⟨used ++ used', u, by simp [split], .cons_of_follows closing statements follows, closes, rfl⟩
theorem block_sound {ts : List Token}
    (ih : ∀ us, us.length < ts.length → SoundExpression stop us ∧ SoundBlock stop us) :
    SoundBlock stop ts := by
  intro b rest read
  rw [Read.block_eq] at read
  obtain ⟨⟨t, us⟩, opening, read⟩ := bind_eq_ok.mp read
  obtain ⟨⟨⟨ss, last⟩, vs⟩, tail, behind⟩ := bind_eq_ok.mp read
  cases behind
  obtain ⟨rfl, opens⟩ := expect_sound opening
  have sound : ∀ vs, vs.length < (t :: us).length → SoundStatement stop vs :=
    fun vs less => statement_sound fun ws lt => ih ws (by omega)
  obtain ⟨used, u, rfl, statements, closes, rfl⟩ := blockTail_sound sound (by simp) tail
  exact ⟨t :: (used ++ [u]), by simp, .mk opens statements closes⟩

/-! ### All tokens -/

theorem sound_all (ts : List Token) : SoundExpression stop ts ∧ SoundBlock stop ts := by
  induction size : ts.length using Nat.strongRecOn generalizing ts with
  | _ n ih =>
    subst size
    have shorter : ∀ us, us.length < ts.length → SoundExpression stop us ∧ SoundBlock stop us :=
      fun us less => ih us.length less us rfl
    exact ⟨expression_sound shorter, block_sound shorter⟩
/-- The statements that are read up to the end, or up to an end token among the tokens. -/
theorem statements_sound {ts : List Token} {ss : List Statement} {s : Span}
    (read : Parse.statements stop ts = .ok (ss, s)) :
    ∃ used rest, ts = used ++ rest ∧ Statements used ss ∧
      ((rest = [] ∧ s = stop) ∨ ∃ t us, rest = t :: us ∧ t.kind = .finish ∧ s = t.span) := by
  induction size : ts.length using Nat.strongRecOn generalizing ts ss with
  | _ n ih =>
    subst size
    cases ts with
    | nil =>
      rw [Read.statements_nil] at read
      cases read
      exact ⟨[], [], rfl, .nil, .inl ⟨rfl, rfl⟩⟩
    | cons t ts =>
      rw [Read.statements_cons] at read
      split at read
      · next finish =>
        cases read
        exact ⟨[], t :: ts, rfl, .nil, .inr ⟨t, ts, rfl, finish, rfl⟩⟩
      · obtain ⟨⟨s, us⟩, first, read⟩ := bind_eq_ok.mp read
        obtain ⟨⟨ss, last⟩, tail, behind⟩ := bind_eq_ok.mp read
        cases behind
        have shorter := Read.length_statement stop first
        obtain ⟨used, o, split, closing, follows⟩ :=
          statement_sound (fun vs _ => sound_all vs) s us first
        obtain ⟨used', rest, rfl, statements, ends⟩ := ih us.length shorter tail rfl
        exact ⟨used ++ used', rest, by simp [split], .cons_of_follows closing statements follows, ends⟩

end KoreanScript.Grammar
