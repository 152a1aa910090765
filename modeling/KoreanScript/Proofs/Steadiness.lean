import KoreanScript.Proofs.GrammarComplete
import KoreanScript.Proofs.GrammarSound

/-!
How far the parser looks ahead. What it takes off the front of tokens hangs on nothing
behind them but the next token: whatever other tokens stand behind with the same one
in front, the same construct is read and the reader stands in front of them.
-/
namespace KoreanScript.Grammar
open BindingPower (ofToken)

/-! ### Expressions -/

theorem Follows.of_head {n : Nat} {r : Expr} {ts us : List Token} (follows : Follows n r ts)
    (same : us.head? = ts.head?) : Follows n r us := by
  unfold Follows
  rw [same]
  exact follows

theorem Level.lt_floor_ofPower {n : Nat} (bound : n ≤ 71) : n < (ofPower n).floor := by
  unfold ofPower
  split_ifs <;> simp only [floor] <;> omega
theorem Level.le_cap_ofPower {n : Nat} (bound : n ≤ 71) : n ≤ (ofPower n).cap := by
  unfold ofPower
  split_ifs <;> simp only [cap] <;> omega
theorem Level.floor_mono {l m : Level} (le : l.rank ≤ m.rank) : l.floor ≤ m.floor := by
  revert le
  cases l <;> cases m <;> decide

/-- The powers that expressions are read under. -/
def Usual (p : BindingPower) : Prop := p.right ≤ 71

theorem Usual.lowest : Usual .lowest := by
  unfold Usual
  decide
theorem Usual.assignment : Usual .assignment := by
  unfold Usual
  decide
theorem Usual.leading : Usual .leading := by
  unfold Usual
  decide
theorem Usual.ofInfix {t : Token} {op : InfixOperator} (found : t.is (.ofInfix op)) : Usual (ofToken t) := by
  rw [Usual, BindingPower.ofToken_of_is found]
  cases op <;> decide

section
variable {s : Span} {p : BindingPower} (usual : Usual p)
include usual

theorem expression_steady {ts rest : List Token} {e : Expr} (read : Read.expression s p ts = .ok (e, rest)) :
    ∃ used r, ts = used ++ rest ∧ Derives (.ofPower p.right) used e r ∧
      ∀ s' ys, ys.head? = rest.head? → Read.expression s' p (used ++ ys) = .ok (e, ys) := by
  have bound : p.right < 80 := Nat.lt_of_le_of_lt usual (by decide)
  obtain ⟨used, r, rfl, derived, follows⟩ := (sound_all ts).1 p e rest bound read
  refine ⟨used, r, rfl, derived, fun s' ys same => ?_⟩
  have follows := follows.of_head same
  exact derived.whole follows
    (derived.read p ys (Level.lt_floor_ofPower usual) (follows.mono (Level.le_cap_ofPower usual)))
/-- The reader comes to the loop behind what it has reached. -/
theorem Reached.read {before ts ys : List Token} {d q : Expr} (reached : Reached p.right before d q ts)
    (same : ys.head? = ts.head?) : Read.expression s p (before ++ ys) = Read.extend s p d ys := by
  obtain ⟨l, derived, whole, follows⟩ := reached
  have below : p.right < l.floor := Nat.lt_of_lt_of_le (Level.lt_floor_ofPower usual) (Level.floor_mono whole)
  exact derived.read p ys below (follows.of_head same)

end

theorem block_steady {s : Span} {ts rest : List Token} {b : Block} (read : Read.block s ts = .ok (b, rest)) :
    ∃ used, ts = used ++ rest ∧ OfBlock used b ∧ ∀ s' ys, Read.block s' (used ++ ys) = .ok (b, ys) := by
  obtain ⟨used, rfl, block⟩ := (sound_all ts).2 b rest read
  exact ⟨used, rfl, block, fun _ ys => block.read ys⟩
theorem parameters_steady {s last : Span} {ts rest : List Token} {is : List Identifier}
    (read : Read.sequence s .closeGroup (Parse.parameter s) ts = .ok ((is, last), rest)) :
    ∃ used, ts = used ++ rest ∧ Parameters used is ∧
      ∀ s' ys, ∃ last', Read.sequence s' .closeGroup (Parse.parameter s') (used ++ ys) = .ok ((is, last'), ys) := by
  obtain ⟨used, rfl, parameters⟩ := parameters_sound read
  exact ⟨used, rfl, parameters, fun _ ys => parameters.read ys⟩

/-- Tokens that make up an entry of a table. -/
inductive OfEntry : List Token → Prop
  | mk {ts us : List Token} {t : Token} {k v q r : Expr} :
    Derives .expression ts k q → t.is .colon → Derives .expression us v r → OfEntry (ts ++ t :: us)

theorem entry_steady {s : Span} {ts rest : List Token} {a : Expr × Expr} (read : Read.entry s ts = .ok (a, rest)) :
    ∃ used, ts = used ++ rest ∧ OfEntry used ∧
      ∀ s' ys, ys.head? = rest.head? → Read.entry s' (used ++ ys) = .ok (a, ys) := by
  rw [Read.entry_eq] at read
  obtain ⟨⟨k, us⟩, key, read⟩ := bind_eq_ok.mp read
  obtain ⟨⟨t, vs⟩, colon, read⟩ := bind_eq_ok.mp read
  obtain ⟨⟨v, ws⟩, value, read⟩ := bind_eq_ok.mp read
  cases read
  obtain ⟨used, q, rfl, derived, steady⟩ := expression_steady .lowest key
  obtain ⟨rfl, between⟩ := expect_sound colon
  obtain ⟨used', r, rfl, derived', steady'⟩ := expression_steady .lowest value
  refine ⟨used ++ t :: used', by simp, .mk derived between derived', fun s' ys same => ?_⟩
  rw [List.append_assoc, List.cons_append]
  exact read_entry (steady s' _ rfl) between (steady' s' ys same)

/-! ### Statements -/

/-- Only what no second block may go on with is left in front of the word between two blocks. -/
theorem bareStatement_apart {s : Span} {ts rest : List Token} {a : Statement}
    (read : Read.bareStatement s ts = .ok (a, rest)) : OpenBranch a → ∀ t ∈ rest.head?, ¬ t.is .otherwise := by
  intro branch
  cases ts with
  | nil => simp [Read.bareStatement_nil] at read
  | cons t ts =>
    rw [Read.bareStatement_cons] at read
    split at read
    · obtain ⟨⟨p, us⟩, _, read⟩ := bind_eq_ok.mp read
      obtain ⟨⟨b, vs⟩, _, read⟩ := bind_eq_ok.mp read
      cases vs with
      | nil =>
        cases read
        simp
      | cons u vs =>
        simp only at read
        split at read
        · obtain ⟨⟨c, ws⟩, _, read⟩ := bind_eq_ok.mp read
          cases read
          exact branch.elim
        · next other =>
          cases read
          simpa using other
    split at read
    · obtain ⟨⟨e, us⟩, _, read⟩ := bind_eq_ok.mp read
      cases read
      exact branch.elim
    split at read
    · cases read
    · obtain ⟨⟨e, us⟩, _, read⟩ := bind_eq_ok.mp read
      cases read
      exact branch.elim
theorem bareStatement_steady {s : Span} {ts rest : List Token} {a : Statement}
    (read : Read.bareStatement s ts = .ok (a, rest)) :
    ∃ used o, ts = used ++ rest ∧ Bare used a o ∧ (∀ r ∈ o, Follows 1 r rest) ∧
      ∀ s' ys, ys.head? = rest.head? → Read.bareStatement s' (used ++ ys) = .ok (a, ys) := by
  have apart := bareStatement_apart read
  obtain ⟨used, o, rfl, bare, follows⟩ := bareStatement_sound (fun us _ => sound_all us) read
  refine ⟨used, o, rfl, bare, follows, fun s' ys same => ?_⟩
  refine bare.read ys (fun r last => (follows r last).of_head same) ?_
  rwa [same]
theorem statement_steady {s : Span} {ts rest : List Token} {a : Statement}
    (read : Read.statement s ts = .ok (a, rest)) :
    ∃ used o, ts = used ++ rest ∧ Closing used a o ∧ (∀ r ∈ o, Follows 1 r rest) ∧
      ∀ s' ys, ys.head? = rest.head? → Read.statement s' (used ++ ys) = .ok (a, ys) := by
  rw [Read.statement_eq] at read
  obtain ⟨⟨a, us⟩, first, read⟩ := bind_eq_ok.mp read
  cases read
  obtain ⟨used, o, rfl, bare, follows, steady⟩ := bareStatement_steady first
  by_cases closed : ∃ t rest, us = t :: rest ∧ t.is .semicolon
  · obtain ⟨t, rest, rfl, semicolon⟩ := closed
    have skipped : ∀ ys, Parse.skipSemicolon (t :: ys) = ys := fun ys => if_pos semicolon
    refine ⟨used ++ [t], none, ?_, .closed bare semicolon, by simp, fun s' ys _ => ?_⟩
    · rw [skipped, List.append_assoc, List.singleton_append]
    · rw [Read.statement_eq, List.append_assoc]
      refine bind_eq_ok.mpr ⟨_, steady s' (t :: ys) rfl, ?_⟩
      simp only [skipped]
  · -- What is left begins with no semicolon, and so does whatever begins like it.
    have skipped : ∀ ys : List Token, ys.head? = us.head? → Parse.skipSemicolon ys = ys := by
      intro ys same
      cases ys with
      | nil => rfl
      | cons t ys =>
        refine if_neg fun semicolon => closed ?_
        obtain ⟨vs, split⟩ := List.head?_eq_some_iff.mp same.symm
        exact ⟨t, vs, split, semicolon⟩
    rw [skipped us rfl]
    refine ⟨used, o, rfl, .bare bare, follows, fun s' ys same => ?_⟩
    rw [Read.statement_eq]
    refine bind_eq_ok.mpr ⟨_, steady s' ys same, ?_⟩
    simp only [skipped ys same]

end KoreanScript.Grammar
