import KoreanScript.Proofs.Refusals

/-!
Where the parser refuses an expression: construct by construct, at a token in front of
which the expression could still be completed. What is in an expression is shorter than
the expression, so this is shown under the hypothesis that shorter lists of tokens are
refused like that, as expressions and as blocks.
-/
namespace KoreanScript.Grammar
open BindingPower (ofToken ofToken_of_is)

/-! ### What is read -/

/-- Tokens that make up an expression that is read under the power `p`. -/
def Under (p : BindingPower) (ts : List Token) : Prop := ∃ e r, Derives (.ofPower p.right) ts e r
/-- Tokens that make up an operand, with any operators before it. -/
def OfStart (ts : List Token) : Prop := ∃ l e r, Derives l ts e r ∧ Level.prefixed.rank ≤ l.rank
def OfParameter (ts : List Token) : Prop := ∃ t, ts = [t] ∧ t.kind = .identifier
def OfSomeBlock (ts : List Token) : Prop := ∃ b, OfBlock ts b

theorem OfStart.primary {ts : List Token} {e r : Expr} (derived : Derives .primary ts e r) : OfStart ts :=
  ⟨.primary, e, r, derived, by decide⟩
theorem OfStart.under {ts : List Token} (p : BindingPower) (start : OfStart ts) : Under p ts := by
  obtain ⟨l, e, r, derived, tight⟩ := start
  exact ⟨e, r, derived.weaken (Nat.le_trans (Level.rank_ofPower_le_prefixed _) tight)⟩
theorem Reached.under {p : BindingPower} {before ts : List Token} {d q : Expr} (reached : Reached p.right before d q ts) :
    Under p before := by
  obtain ⟨l, derived, whole, _⟩ := reached
  exact ⟨d, q, derived.weaken whole⟩
theorem Derives.someName : Derives .primary [Mark.name.token] (.identifier ⟨"x", .origin⟩) (.identifier ⟨"x", .origin⟩) :=
  .identifier rfl
theorem Completes.someStart : Completes OfStart [] := .marks [.name] (by decide) (.primary .someName)
theorem OfBlock.empty : OfBlock [Mark.openBlock.token, Mark.closeBlock.token] ⟨[], .origin⟩ :=
  .mk (Mark.token_is _) .nil (Mark.token_is _)

theorem Listed.items {close : Mark} {ts : List Token} (listed : Listed close (Under .lowest) ts) :
    ∃ es s, Items close ts es s := by
  induction listed with
  | last item closed =>
    obtain ⟨e, r, derived⟩ := item
    exact ⟨_, _, .last derived closed⟩
  | more item comma _ ih =>
    obtain ⟨e, r, derived⟩ := item
    obtain ⟨es, s, items⟩ := ih
    exact ⟨_, _, .more derived comma items⟩
theorem Sequenced.elements {close : Mark} {ts : List Token} (sequenced : Sequenced close (Under .lowest) ts) :
    ∃ es s, Elements close ts es s := by
  cases sequenced with
  | none closed => exact ⟨_, _, .none closed⟩
  | some listed =>
    obtain ⟨es, s, items⟩ := listed.items
    exact ⟨es, s, .some items⟩
theorem Listed.pairs {ts : List Token} (listed : Listed .closeList OfEntry ts) : ∃ es s, Pairs ts es s := by
  induction listed with
  | last item closed =>
    obtain ⟨key, colon, value⟩ := item
    rw [List.append_assoc, List.cons_append]
    exact ⟨_, _, .last key colon value closed⟩
  | more item comma _ ih =>
    obtain ⟨key, colon, value⟩ := item
    obtain ⟨es, s, pairs⟩ := ih
    rw [List.append_assoc, List.cons_append]
    exact ⟨_, _, .more key colon value comma pairs⟩
theorem Sequenced.entries {ts : List Token} (sequenced : Sequenced .closeList OfEntry ts) :
    ∃ es s, Entries ts es s := by
  cases sequenced with
  | none closed => exact ⟨_, _, .none closed⟩
  | some listed =>
    obtain ⟨es, s, pairs⟩ := listed.pairs
    exact ⟨es, s, .some pairs⟩
theorem Listed.names {ts : List Token} (listed : Listed .closeGroup OfParameter ts) :
    ∃ is s, Names .closeGroup ts is s := by
  induction listed with
  | last item closed =>
    obtain ⟨t, rfl, kind⟩ := item
    exact ⟨_, _, .last kind closed⟩
  | more item comma _ ih =>
    obtain ⟨t, rfl, kind⟩ := item
    obtain ⟨is, s, names⟩ := ih
    exact ⟨_, _, .more kind comma names⟩
theorem Sequenced.parameters {ts : List Token} (sequenced : Sequenced .closeGroup OfParameter ts) :
    ∃ is, Parameters ts is := by
  cases sequenced with
  | none closed => exact ⟨_, .none closed⟩
  | some listed =>
    obtain ⟨is, s, names⟩ := listed.names
    exact ⟨is, .some names⟩

/-! ### Equations

The equations of the parser for the constructs that begin with a mark. -/

section
variable {s : Span} {t : Token}

theorem start_function_eq (first : t.is .function) (us : List Token) : Read.start s (t :: us) = (do
    let (_, rest) ← Read.expect s .openGroup us
    let ((parameters, _), rest) ← Read.sequence s .closeGroup (Parse.parameter s) rest
    let (body, rest) ← Read.block s rest
    .ok (.function parameters body (t.span.through body.span), rest)) := by
  have kind : t.kind = .keyword := Token.kind_of_is first
  rw [Read.start_cons, kind]
  simp only [Read.opened, if_pos first]
theorem start_group_eq (opens : t.is .openGroup) (us : List Token) : Read.start s (t :: us) = (do
    let (e, rest) ← Read.expression s .lowest us
    let (last, rest) ← Read.expect s .closeGroup rest
    .ok (e.withSpan (t.span.through last.span), rest)) := by
  have kind : t.kind = .groupDelimiter := Token.kind_of_is opens
  have other : ¬ t.is .function := by simp [Token.is_eq_false opens (n := .function) (by decide)]
  rw [Read.start_cons, kind]
  simp only [Read.opened, if_neg other, if_pos opens]
theorem start_bracket_nil (opens : t.is .openList) : Read.start s [t] = .error ⟨.expression .finish, s⟩ := by
  have kind : t.kind = .listDelimiter := Token.kind_of_is opens
  have other : ¬ t.is .function := by simp [Token.is_eq_false opens (n := .function) (by decide)]
  have ungrouped : ¬ t.is .openGroup := by simp [Token.is_eq_false opens (n := .openGroup) (by decide)]
  rw [Read.start_cons, kind]
  simp only [Read.opened, if_neg other, if_neg ungrouped, if_pos opens]

end

/-- How the loop behind the expression `d` fails at the token `t` that binds, or behind it. -/
inductive Stuck (s : Span) (p : BindingPower) : Expr → Token → List Token → ParseError → Prop
  | inArguments {d : Expr} {t : Token} {ts : List Token} {e : ParseError} : d.isCallable → t.is .openGroup →
    Read.sequence s .closeGroup (Parse.expression s .lowest) ts = .error e → Stuck s p d t ts e
  | behindCall {es : List Expr} {last : Span} {us : List Token} {d : Expr} {t : Token} {ts : List Token}
    {e : ParseError} : d.isCallable → t.is .openGroup →
    Read.sequence s .closeGroup (Parse.expression s .lowest) ts = .ok ((es, last), us) →
    Read.extend s p (.call d es (d.span.through last)) us = .error e → Stuck s p d t ts e
  | inValue {i : Identifier} {t : Token} {ts : List Token} {e : ParseError} : t.is .assignment →
    Read.expression s .assignment ts = .error e → Stuck s p (.identifier i) t ts e
  | behindAssignment {i : Identifier} {v : Expr} {us : List Token} {t : Token} {ts : List Token} {e : ParseError} :
    t.is .assignment → Read.expression s .assignment ts = .ok (v, us) →
    Read.extend s p (.assignment i v (i.span.through v.span)) us = .error e → Stuck s p (.identifier i) t ts e
  | target {d : Expr} {t : Token} {ts : List Token} : t.is .assignment → (∀ i, d ≠ .identifier i) →
    Stuck s p d t ts ⟨.assignmentTarget d.render, d.span⟩
  | noOperator {d : Expr} {t : Token} {ts : List Token} : t.kind ≠ .groupDelimiter → ¬ t.is .assignment →
    InfixOperator.ofLexeme? t.value = none → Stuck s p d t ts ⟨.infixOperator t.value, t.span⟩
  | inOperand {op : InfixOperator} {d : Expr} {t : Token} {ts : List Token} {e : ParseError} : t.is (.ofInfix op) →
    Read.expression s (ofToken t) ts = .error e → Stuck s p d t ts e
  | behindOperand {op : InfixOperator} {v : Expr} {us : List Token} {d : Expr} {t : Token} {ts : List Token}
    {e : ParseError} : t.is (.ofInfix op) → Read.expression s (ofToken t) ts = .ok (v, us) →
    Read.extend s p (.binary op d v (d.span.through v.span)) us = .error e → Stuck s p d t ts e

theorem below_assignment {p : BindingPower} {t : Token} (assigns : t.is .assignment) (binds : p.right < (ofToken t).left) :
    p.right < 31 := by
  rwa [ofToken_of_is assigns] at binds
theorem tolerated_of_follows {n : Nat} {r : Expr} {t : Token} {ts : List Token} (follows : Follows n r (t :: ts))
    (other : t.kind ≠ .groupDelimiter) : (ofToken t).left ≤ n := by
  rcases follows_cons.mp follows with tolerated | ⟨group, _⟩
  · exact tolerated
  · exact absurd group other

section
variable {s : Span} {p : BindingPower} {d : Expr} {t : Token} {ts : List Token} {e : ParseError}

/-- The loop fails only at a token that binds or behind it. -/
theorem stuck_of_extend (failed : Read.extend s p d (t :: ts) = .error e) :
    p.right < (ofToken t).left ∧ Stuck s p d t ts e := by
  rw [Read.extend_cons] at failed
  split at failed
  · cases failed
  next binds =>
  refine ⟨Nat.not_le.mp binds, ?_⟩
  split at failed
  · split at failed
    · next call =>
      rcases bind_eq_error.mp failed with inner | ⟨_, arguments, behind⟩
      · exact .inArguments call.2 call.1 inner
      · exact .behindCall call.2 call.1 arguments behind
    · cases failed
  next kind =>
  split at failed
  · next assigns =>
    split at failed
    · rcases bind_eq_error.mp failed with inner | ⟨_, value, behind⟩
      · exact .inValue assigns inner
      · exact .behindAssignment assigns value behind
    · next unnamed =>
      cases failed
      exact .target assigns unnamed
  next other =>
  split at failed
  · next none =>
    cases failed
    exact .noOperator kind other none
  · next op lexeme =>
    have operator : t.kind = .operator :=
      (BindingPower.kind_of_left_pos (by omega)).resolve_right kind
    have found : t.is (.ofInfix op) :=
      Token.is_iff.mpr ⟨operator, InfixOperator.lexeme_of_ofLexeme? lexeme⟩
    rcases bind_eq_error.mp failed with inner | ⟨_, operand, behind⟩
    · exact .inOperand found inner
    · exact .behindOperand found operand behind
theorem Stuck.extend (binds : p.right < (ofToken t).left) (stuck : Stuck s p d t ts e) :
    Read.extend s p d (t :: ts) = .error e := by
  have tight : ¬ (ofToken t).left ≤ p.right := Nat.not_le.mpr binds
  cases stuck with
  | inArguments callable opens inner =>
    have kind : t.kind = .groupDelimiter := Token.kind_of_is opens
    rw [Read.extend_cons, if_neg tight, if_pos kind, if_pos ⟨opens, callable⟩]
    exact bind_eq_error.mpr (.inl inner)
  | behindCall callable opens arguments behind =>
    rw [ofToken_of_is opens] at binds
    exact (extend_call callable opens binds arguments).trans behind
  | inValue assigns inner =>
    rw [Read.extend_cons, if_neg tight, if_neg (by simp [Token.kind_of_is assigns, Mark.assignment]), if_pos assigns]
    exact bind_eq_error.mpr (.inl inner)
  | behindAssignment assigns value behind =>
    exact (extend_assignment assigns (below_assignment assigns binds) value).trans behind
  | target assigns unnamed =>
    rw [Read.extend_cons, if_neg tight, if_neg (by simp [Token.kind_of_is assigns, Mark.assignment]), if_pos assigns]
    cases d with
    | identifier i => exact absurd rfl (unnamed i)
    | _ => rfl
  | noOperator kind other none =>
    rw [Read.extend_cons, if_neg tight, if_neg kind, if_neg other]
    simp only [none]
  | @inOperand op _ _ _ _ found inner =>
    have other : ¬ t.is .assignment := by
      rw [Token.is_eq_false found (by cases op <;> decide)]
      decide
    have lexeme : InfixOperator.ofLexeme? t.value = some op := by
      rw [(Token.is_iff.mp found).2]
      exact InfixOperator.ofLexeme?_lexeme op
    rw [Read.extend_cons, if_neg tight, if_neg (by simp [Token.kind_of_is found, Mark.ofInfix]), if_neg other]
    simp only [lexeme]
    exact bind_eq_error.mpr (.inl inner)
  | behindOperand found operand behind => exact ( extend_infix found binds operand).trans behind

end

/-! ### Refusals -/

/-- Whether lists of fewer than `n` tokens are refused at the earliest token. -/
def RefusedBelow (n : Nat) : Prop :=
  ∀ s ts e, ts.length < n →
    (∀ p, Usual p → Read.expression s p ts = .error e →
      Refused (fun s => Read.expression s p) (Under p) s e ts) ∧
    (Read.block s ts = .error e → Refused Read.block OfSomeBlock s e ts)

theorem parameter_refused (s : Span) (ts : List Token) (e : ParseError) (failed : Read.parameter s ts = .error e) :
    Refused Read.parameter OfParameter s e ts := by
  have named : Completes OfParameter [] := .marks [.name] (by decide) ⟨_, rfl, rfl⟩
  cases ts with
  | nil =>
    rw [Read.parameter_nil] at failed
    cases failed
    exact .finish named (by simp) rfl
  | cons t ts =>
    rw [Read.parameter_cons] at failed
    split at failed
    · cases failed
    · next other =>
      cases failed
      exact .token [] named (by simp) rfl fun s' us => (Read.parameter_cons ..).trans (if_neg other)
theorem parameters_refused {s : Span} {ts : List Token} {e : ParseError}
    (failed : Read.sequence s .closeGroup (Parse.parameter s) ts = .error e) :
    Refused (fun s => Read.sequence s .closeGroup (Parse.parameter s)) (Sequenced .closeGroup OfParameter) s e ts := by
  refine sequence_refused (n := ts.length + 1) ?_ (fun s ts e _ => parameter_refused s ts e) (by decide) (by omega) failed
  intro s ts i rest read
  obtain ⟨t, rfl, kind, rfl⟩ := parameter_sound read
  exact ⟨[t], rfl, ⟨t, rfl, kind⟩, fun s' us _ => read_parameter kind us⟩

section
variable {n : Nat} (below : RefusedBelow n)
include below

theorem elements_refused {s : Span} {ts : List Token} {e : ParseError} {close : Mark} (kind : close.kind ≠ .finish)
    (bound : ts.length < n) (failed : Read.sequence s close (Parse.expression s .lowest) ts = .error e) :
    Refused (fun s => Read.sequence s close (Parse.expression s .lowest)) (Sequenced close (Under .lowest)) s e ts := by
  refine sequence_refused ?_ (fun s ts e less => (below s ts e less).1 .lowest .lowest) kind bound failed
  intro s ts d rest read
  obtain ⟨used, r, split, derived, steady⟩ := expression_steady .lowest read
  exact ⟨used, split, ⟨d, r, derived⟩, steady⟩
theorem entry_refused (s : Span) (ts : List Token) (e : ParseError) (bound : ts.length < n)
    (failed : Read.entry s ts = .error e) : Refused Read.entry OfEntry s e ts := by
  have onward : ∀ us, Under .lowest us → Completes OfEntry us := by
    rintro us ⟨k, q, derived⟩
    exact .marks [.colon, .name] (by decide) (.mk derived (Mark.token_is _) (Derives.someName.weaken (by decide)))
  rw [Read.entry_eq] at failed
  rcases bind_eq_error.mp failed with first | ⟨⟨k, us⟩, key, behind⟩
  · exact ((below s ts e bound).1 .lowest .lowest first).first Read.entry_eq onward
  obtain ⟨used, q, rfl, derived, steady⟩ := expression_steady .lowest key
  rcases bind_eq_error.mp behind with second | ⟨⟨t, vs⟩, colon, last⟩
  · refine expect_refused second used (onward used ⟨k, q, derived⟩) fun s' us e' same failed => ?_
    refine (Read.entry_eq ..).trans (bind_eq_error.mpr (.inr ⟨_, steady s' us same, ?_⟩))
    exact bind_eq_error.mpr (.inl failed)
  obtain ⟨rfl, between⟩ := expect_sound colon
  have third := error_of_bind_ok last fun _ => ⟨_, rfl⟩
  simp only [List.length_append, List.length_cons] at bound
  refine ((below s vs e (by omega)).1 .lowest .lowest third).behind used t ?_ fun s' us e' _ failed => ?_
  · rintro us ⟨v, r, derived'⟩
    exact .whole (.mk derived between derived')
  · refine (Read.entry_eq ..).trans (bind_eq_error.mpr (.inr ⟨_, steady s' (t :: us) rfl, ?_⟩))
    exact bind_eq_error.mpr (.inr ⟨_, read_expect between us, bind_eq_error.mpr (.inl failed)⟩)
theorem entries_refused {s : Span} {ts : List Token} {e : ParseError} (bound : ts.length < n)
    (failed : Read.sequence s .closeList (Parse.entry s) ts = .error e) :
    Refused (fun s => Read.sequence s .closeList (Parse.entry s)) (Sequenced .closeList OfEntry) s e ts :=
  sequence_refused (fun _ _ _ _ read => entry_steady read) (fun s ts e less => entry_refused below s ts e less)
    (by decide) bound failed


theorem function_refused {s : Span} {t : Token} {ts : List Token} {e : ParseError} (bound : ts.length < n)
    (first : t.is .function) (failed : Read.start s (t :: ts) = .error e) : Refused Read.start OfStart s e (t :: ts) := by
  rw [start_function_eq first] at failed
  rcases bind_eq_error.mp failed with opening | ⟨⟨u, us⟩, opening, behind⟩
  · refine expect_refused opening [t] ?_ fun s' us e' _ failed => ?_
    · exact .marks [.openGroup, .closeGroup, .openBlock, .closeBlock] (by decide)
        (.primary (.function first (Mark.token_is _) (.none (Mark.token_is _)) .empty))
    · exact (start_function_eq first us).trans (bind_eq_error.mpr (.inl failed))
  obtain ⟨rfl, group⟩ := expect_sound opening
  rcases bind_eq_error.mp behind with names | ⟨⟨⟨is, last⟩, vs⟩, names, last⟩
  · refine (parameters_refused names).within [t, u] ?_ fun s' us e' _ failed => ?_
    · intro us sequenced
      obtain ⟨is, parameters⟩ := sequenced.parameters
      exact .marks [.openBlock, .closeBlock] (by decide) (.primary (.function first group parameters .empty))
    · refine (start_function_eq first (u :: us)).trans (bind_eq_error.mpr (.inr ⟨_, read_expect group us, ?_⟩))
      exact bind_eq_error.mpr (.inl failed)
  obtain ⟨used, rfl, parameters, steady⟩ := parameters_steady names
  have body := error_of_bind_ok last fun _ => ⟨_, rfl⟩
  have smaller : vs.length < n := by
    simp only [List.length_cons, List.length_append] at bound
    omega
  refine ((below s vs e smaller).2 body).within (t :: u :: used) ?_ fun s' us e' _ failed => ?_
  · rintro us ⟨b, block⟩
    exact .whole (.primary (.function first group parameters block))
  · obtain ⟨last', names⟩ := steady s' us
    refine (start_function_eq first _).trans (bind_eq_error.mpr (.inr ⟨_, read_expect group _, ?_⟩))
    exact bind_eq_error.mpr (.inr ⟨_, names, bind_eq_error.mpr (.inl failed)⟩)
theorem group_refused {s : Span} {t : Token} {ts : List Token} {e : ParseError} (bound : ts.length < n)
    (opens : t.is .openGroup) (failed : Read.start s (t :: ts) = .error e) : Refused Read.start OfStart s e (t :: ts) := by
  have onward : ∀ us, Under .lowest us → Completes OfStart (t :: us) := by
    rintro us ⟨d, r, derived⟩
    exact .marks [.closeGroup] (by decide) (.primary (.group opens derived (Mark.token_is _)))
  rw [start_group_eq opens] at failed
  rcases bind_eq_error.mp failed with inner | ⟨⟨d, us⟩, inner, behind⟩
  · refine ((below s ts e bound).1 .lowest .lowest inner).within [t] onward fun s' us e' _ failed => ?_
    exact (start_group_eq opens us).trans (bind_eq_error.mpr (.inl failed))
  obtain ⟨used, r, rfl, derived, steady⟩ := expression_steady .lowest inner
  have closing := error_of_bind_ok behind fun _ => ⟨_, rfl⟩
  refine expect_refused closing (t :: used) (onward used ⟨d, r, derived⟩) fun s' us e' same failed => ?_
  refine (start_group_eq opens _).trans (bind_eq_error.mpr (.inr ⟨_, steady s' us same, ?_⟩))
  exact bind_eq_error.mpr (.inl failed)
theorem bracket_refused {s : Span} {t : Token} {ts : List Token} {e : ParseError} (bound : ts.length < n)
    (opens : t.is .openList) (failed : Read.start s (t :: ts) = .error e) : Refused Read.start OfStart s e (t :: ts) := by
  cases ts with
  | nil =>
    rw [start_bracket_nil opens] at failed
    cases failed
    refine .finish (.marks [.closeList] (by decide) ?_) (by simp) rfl
    exact .primary (.list opens (.none (Mark.token_is _)))
  | cons u us =>
    rw [start_bracket opens] at failed
    split at failed
    · next marked =>
      have entries := error_of_bind_ok failed fun _ => ⟨_, rfl⟩
      have smaller : us.length < n := Nat.lt_of_succ_lt bound
      refine (entries_refused below smaller entries).within [t, u] ?_ fun s' us e' _ failed => ?_
      · intro us sequenced
        obtain ⟨es, s, entries⟩ := sequenced.entries
        exact .whole (.primary (.table opens marked entries))
      · exact (start_bracket opens).trans ((if_pos marked).trans (bind_eq_error.mpr (.inl failed)))
    · next unmarked =>
      have inner := error_of_bind_ok failed fun _ => ⟨_, rfl⟩
      refine (elements_refused below (by decide) bound inner).within [t] ?_ fun s' us e' same failed => ?_
      · intro us sequenced
        obtain ⟨es, s, elements⟩ := sequenced.elements
        exact .whole (.primary (.list opens elements))
      · obtain ⟨vs, rfl⟩ := List.head?_eq_some_iff.mp same
        exact (start_bracket opens).trans ((if_neg unmarked).trans (bind_eq_error.mpr (.inl failed)))
/-- What a keyword or a delimiter begins. -/
theorem opened_refused {s : Span} {t : Token} {ts : List Token} {e : ParseError} (bound : ts.length < n)
    (opens : ∀ s us, Read.start s (t :: us) = Read.opened s t us) (failed : Read.opened s t ts = .error e) :
    Refused Read.start OfStart s e (t :: ts) := by
  rw [← opens] at failed
  by_cases first : t.is .function
  · exact function_refused below bound first failed
  by_cases group : t.is .openGroup
  · exact group_refused below bound group failed
  by_cases list : t.is .openList
  · exact bracket_refused below bound list failed
  have unopened : ∀ s us, Read.start s (t :: us) = .error ⟨.expression t.kind, t.span⟩ := by
    intro s us
    rw [opens]
    simp only [Read.opened, if_neg first, if_neg group, if_neg list]
  cases (unopened s ts).symm.trans failed
  exact .token [] .someStart (by simp) rfl unopened
theorem start_refused {s : Span} {ts : List Token} {e : ParseError} (bound : ts.length < n + 1)
    (failed : Read.start s ts = .error e) : Refused Read.start OfStart s e ts := by
  cases ts with
  | nil =>
    rw [Read.start_nil] at failed
    cases failed
    exact .finish .someStart (by simp) rfl
  | cons t ts =>
    simp only [List.length_cons, Nat.add_lt_add_iff_right] at bound
    rw [Read.start_cons] at failed
    split at failed
    · next kind =>
      split at failed
      · cases failed
      · next none =>
        cases failed
        refine .token [] .someStart (by simp) rfl fun s' us => ?_
        rw [List.nil_append, Read.start_cons, kind]
        simp only [none]
    · next kind =>
      split at failed
      · cases failed
      · next none =>
        cases failed
        refine .token [] .someStart (by simp) rfl fun s' us => ?_
        rw [List.nil_append, Read.start_cons, kind]
        simp only [none]
    · cases failed
    · cases failed
    · next kind =>
      split at failed
      · next none =>
        cases failed
        refine .token [] .someStart (by simp) rfl fun s' us => ?_
        rw [List.nil_append, Read.start_cons, kind]
        simp only [none]
      · next op lexeme =>
        have leads : t.is (.ofPrefix op) :=
          Token.is_iff.mpr ⟨kind, PrefixOperator.lexeme_of_ofLexeme? lexeme⟩
        have inner := error_of_bind_ok failed fun _ => ⟨_, rfl⟩
        refine ((below s ts e bound).1 .leading .leading inner).within [t] ?_ fun s' us e' _ failed => ?_
        · rintro us ⟨d, r, derived⟩
          exact .whole ⟨.prefixed, _, r, .lead leads derived, by decide⟩
        · rw [List.singleton_append, Read.start_cons, kind]
          simp only [lexeme]
          exact bind_eq_error.mpr (.inl failed)
    · next number boolean string identifier operator =>
      refine opened_refused below bound (fun s us => ?_) failed
      rw [Read.start_cons]
      split <;> first | contradiction | rfl

/-- The loop behind an expression `d` that has been read of the tokens `read`. -/
theorem extend_refused {s : Span} {p : BindingPower} {e : ParseError} (usual : Usual p) {read ts : List Token}
    {d q : Expr} (bound : ts.length < n + 1) (reached : Reached p.right read d q ts)
    (failed : Read.extend s p d ts = .error e) :
    Refused (fun s => Read.expression s p) (Under p) s e (read ++ ts) := by
  induction size : ts.length using Nat.strongRecOn generalizing read ts d q with
  | _ m ih =>
    subst size
    cases ts with
    | nil =>
      rw [Read.extend_nil] at failed
      cases failed
    | cons t ts =>
      simp only [List.length_cons, Nat.add_lt_add_iff_right] at bound ih
      obtain ⟨binds, stuck⟩ := stuck_of_extend failed
      -- What the loop refuses at the token or behind it, the expression is refused for.
      have passes : ∀ s' us e', Stuck s' p d t us e' → Read.expression s' p (read ++ t :: us) = .error e' := by
        intro s' us e' stuck
        have enters : Read.expression s' p (read ++ t :: us) = Read.extend s' p d (t :: us) := reached.read usual rfl
        exact enters.trans (stuck.extend binds)
      -- What is read behind the token, the loop goes on behind.
      have later : ∀ used us d' r, ts = used ++ us → Reached p.right (read ++ t :: used) d' r us →
          Read.extend s p d' us = .error e → Refused (fun s => Read.expression s p) (Under p) s e (read ++ t :: ts) := by
        rintro used us d' r rfl reached failed
        simp only [List.length_append] at bound ih
        have rest := ih us.length (by omega) (by omega) reached failed rfl
        rwa [List.append_assoc, List.cons_append] at rest
      have complete : Completes (Under p) read := .whole reached.under
      obtain ⟨l, derived, whole, follows⟩ := reached
      cases stuck with
      | inArguments callable opens inner =>
        refine (elements_refused below (by decide) bound inner).behind read t ?_
          fun s' us e' _ failed => passes s' us e' (.inArguments callable opens failed)
        intro us sequenced
        obtain ⟨es, last, elements⟩ := sequenced.elements
        have called : Reached p.right (read ++ t :: us) _ _ [] := .call derived callable opens elements
        exact .whole called.under
      | behindCall callable opens arguments behind =>
        obtain ⟨used, split, elements⟩ := elements_sound (fun us _ => (sound_all us).1) (Nat.lt_succ_self _) arguments
        exact later used _ _ _ split (.call derived callable opens elements) behind
      | inValue assigns inner =>
        have low := below_assignment assigns binds
        refine ((below s ts e bound).1 .assignment .assignment inner).behind read t ?_
          fun s' us e' _ failed => passes s' us e' (.inValue assigns failed)
        rintro us ⟨v, r, value⟩
        have assigned : Reached p.right (read ++ t :: us) _ _ [] := .assign derived assigns low value (.nil _ _)
        exact .whole assigned.under
      | behindAssignment assigns right behind =>
        obtain ⟨used, r, split, value, follows⟩ := (sound_all ts).1 .assignment _ _ (by decide) right
        exact later used _ _ _ split (.assign derived assigns (below_assignment assigns binds) value follows) behind
      | target assigns unnamed =>
        -- The equals sign does not follow an assignment, so what is in front of it is none.
        have tight : Level.comparison.rank ≤ l.rank := by
          have tolerated := tolerated_of_follows follows (by simp [Token.kind_of_is assigns, Mark.assignment])
          rw [ofToken_of_is assigns] at tolerated
          revert tolerated
          cases l <;> decide
        refine ⟨read, t :: ts, rfl, complete, ?_, ?_⟩
        · exact @Blames.target _ _ [] read t d q p assigns (derived.weaken tight) unnamed
            (below_assignment assigns binds) fun _ _ _ _ failed => failed
        · rintro u ⟨⟩ s' us
          exact passes s' us _ (.target assigns unnamed)
      | noOperator group other none =>
        exact .token read complete (by simp) rfl fun s' us => passes s' us _ (.noOperator group other none)
      | inOperand found inner =>
        have tolerated := tolerated_of_follows follows (by simp [Token.kind_of_is found, Mark.ofInfix])
        refine ((below s ts e bound).1 _ (.ofInfix found) inner).behind read t ?_
          fun s' us e' _ failed => passes s' us e' (.inOperand found failed)
        rintro us ⟨v, r, right⟩
        have joined : Reached p.right (read ++ t :: us) _ _ [] :=
          .binary derived found tolerated binds right (.nil _ _)
        exact .whole joined.under
      | behindOperand found operand behind =>
        have tolerated := tolerated_of_follows follows (by simp [Token.kind_of_is found, Mark.ofInfix])
        have bounded : (ofToken t).right < 80 := Nat.lt_of_le_of_lt (Usual.ofInfix found) (by decide)
        obtain ⟨used, r, split, right, follows⟩ := (sound_all ts).1 _ _ _ bounded operand
        exact later used _ _ _ split (.binary derived found tolerated binds right follows) behind
theorem expression_refused {s : Span} {p : BindingPower} {ts : List Token} {e : ParseError} (usual : Usual p)
    (bound : ts.length < n + 1) (failed : Read.expression s p ts = .error e) :
    Refused (fun s => Read.expression s p) (Under p) s e ts := by
  rw [Read.expression_eq] at failed
  rcases bind_eq_error.mp failed with first | ⟨⟨d, us⟩, first, behind⟩
  · exact (start_refused below bound first).first (fun s us => Read.expression_eq s p us)
      fun us start => .whole (start.under p)
  · obtain ⟨read, l, r, rfl, derived, tight, follows⟩ := start_sound (fun us _ => sound_all us) first
    have whole : (Level.ofPower p.right).rank ≤ l.rank :=
      Nat.le_trans (Level.rank_ofPower_le_prefixed _) tight
    simp only [List.length_append] at bound
    exact extend_refused below usual (by omega) ⟨l, derived, whole, follows⟩ behind

end
end KoreanScript.Grammar
