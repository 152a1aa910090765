import Mathlib.Tactic.ByContra
import Mathlib.Tactic.SplitIfs
import KoreanScript.Proofs.Grammar

/-!
The levels of the grammar against the powers of the parser. A level tolerates
behind it what binds no tighter than its `cap`, and an expression of a level is
read whole under every power below its `floor`. The rest of the module is about
the two ends of a derivation: the token it starts with and the operand it ends
with.
-/
namespace KoreanScript

theorem Token.is_iff {t : Token} {m : Mark} : t.is m ↔ t.kind = m.kind ∧ t.value = m.lexeme := by
  simp [Token.is]
theorem Token.kind_of_is {t : Token} {m : Mark} (found : t.is m) : t.kind = m.kind :=
  (Token.is_iff.mp found).1
/-- A token is the lexeme of one mark only. -/
theorem Token.is_eq_false {t : Token} {m n : Mark} (found : t.is m) (other : m ≠ n) :
    t.is n = false := by
  obtain ⟨kind, value⟩ := Token.is_iff.mp found
  rw [Bool.eq_false_iff]
  intro also
  obtain ⟨kind', value'⟩ := Token.is_iff.mp also
  apply other
  cases m; cases n
  simp_all

theorem Expr.withSpan_eq_identifier {e : Expr} {s : Span} {i : Identifier}
    (named : e.withSpan s = .identifier i) : ∃ j, e = .identifier j ∧ i = ⟨j.name, s⟩ := by
  cases e <;> cases named
  exact ⟨_, rfl, rfl⟩

theorem PrefixOperator.lexeme_of_ofLexeme? {s : String} {op : PrefixOperator}
    (found : ofLexeme? s = some op) : s = op.lexeme := by
  have same := List.find?_some found
  exact (eq_of_beq same).symm
theorem InfixOperator.lexeme_of_ofLexeme? {s : String} {op : InfixOperator}
    (found : ofLexeme? s = some op) : s = op.lexeme := by
  have same := List.find?_some found
  exact (eq_of_beq same).symm
theorem Word.eq_of_toBool? {s : String} {b : Bool} (found : toBool? s = some b) : s = ofBool b := by
  unfold toBool? at found
  split at found
  · next same => cases found; exact same
  split at found
  · next same => cases found; exact same
  · cases found

namespace BindingPower

/-- The power of a mark behind a complete expression. -/
def ofMark (m : Mark) : BindingPower := ofToken ⟨m.kind, m.lexeme, .origin⟩
theorem ofToken_of_is {t : Token} {m : Mark} (found : t.is m) : ofToken t = ofMark m := by
  obtain ⟨kind, value⟩ := Token.is_iff.mp found
  simp only [ofMark, ofToken, kind, value]
theorem ofToken_of_kind {t : Token} (kind : t.kind ≠ .operator) (kind' : t.kind ≠ .groupDelimiter) :
    ofToken t = lowest := by
  simp [ofToken, kind, kind']
theorem ofMark_comparison {op : InfixOperator} (member : op ∈ Grammar.comparisons) :
    ofMark (.ofInfix op) = comparison := by
  revert op
  decide
theorem ofMark_summative {op : InfixOperator} (member : op ∈ Grammar.summatives) :
    ofMark (.ofInfix op) = summative := by
  revert op
  decide
theorem ofMark_productive {op : InfixOperator} (member : op ∈ Grammar.productives) :
    ofMark (.ofInfix op) = productive := by
  revert op
  decide
theorem left_ofLexeme_le (s : String) : (ofLexeme s).left ≤ call.left := by
  unfold ofLexeme
  cases found : table.lookup s with
  | none => decide
  | some p =>
    obtain ⟨_, _, split, _⟩ := List.lookup_eq_some_iff.mp found
    have member : (s, p) ∈ table := by rw [split]; simp
    have bounded : ∀ entry ∈ table, entry.2.left ≤ call.left := by decide
    exact bounded (s, p) member
/-- Nothing binds tighter than a call. -/
theorem left_ofToken_le (t : Token) : (ofToken t).left ≤ call.left := by
  unfold ofToken
  split
  · exact left_ofLexeme_le t.value
  · decide
/-- Only operators and group delimiters bind at all. -/
theorem kind_of_left_pos {t : Token} (binds : 0 < (ofToken t).left) :
    t.kind = .operator ∨ t.kind = .groupDelimiter := by
  by_contra other
  simp only [ofToken, if_neg other, lowest, Nat.lt_irrefl] at binds

end BindingPower

namespace Grammar
open BindingPower (ofToken ofMark ofToken_of_is)

/-! ### Levels -/

namespace Level

def rank : Level → Nat
  | expression => 0
  | comparison => 1
  | sum => 2
  | product => 3
  | prefixed => 4
  | call => 5
  | primary => 6
/-- The next looser level. -/
def looser : Level → Level
  | expression | comparison => expression
  | sum => comparison
  | product => sum
  | prefixed => product
  | call => prefixed
  | primary => call
/-- What binds tighter than this cannot stand behind an expression of the level. -/
def cap : Level → Nat
  | expression => 30
  | comparison => 40
  | sum => 51
  | product => 61
  | prefixed => 71
  | call | primary => 80
/-- The least left power of the operators that an expression of the level may hang on. -/
def floor : Level → Nat
  | expression => 31
  | comparison => 41
  | sum => 50
  | product => 60
  | prefixed | call | primary => 80
/-- The level of the expressions that are read under a right power. -/
def ofPower (n : Nat) : Level :=
  if n < 31 then expression else if n < 41 then comparison else if n < 50 then sum
  else if n < 60 then product else prefixed

theorem rank_injective {l m : Level} (same : l.rank = m.rank) : l = m := by
  revert same
  cases l <;> cases m <;> decide
theorem rank_looser (l : Level) : l.looser.rank = l.rank - 1 := by cases l <;> rfl
theorem rank_ofPower_le_prefixed (n : Nat) : (ofPower n).rank ≤ prefixed.rank := by
  unfold ofPower
  split_ifs <;> decide
/-- Under a power below its floor an expression of a level is read whole. -/
theorem rank_ofPower_le {l : Level} {n : Nat} (below : n < l.floor) : (ofPower n).rank ≤ l.rank := by
  cases l with
  | expression => have below : n < 31 := below; simp [ofPower, below, rank]
  | comparison => have below : n < 41 := below; unfold ofPower; split_ifs <;> decide
  | sum => have below : n < 50 := below; unfold ofPower; split_ifs <;> decide
  | product => have below : n < 60 := below; unfold ofPower; split_ifs <;> decide
  | prefixed => exact rank_ofPower_le_prefixed n
  | call | primary => exact Nat.le_trans (rank_ofPower_le_prefixed n) (by decide)

end Level

theorem Derives.loosen {l : Level} {ts : List Token} {e r : Expr} (h : Derives l ts e r) :
    Derives l.looser ts e r := by
  cases l with
  | expression => exact h
  | comparison => exact .ofComparison h
  | sum => exact .ofSum h
  | product => exact .ofProduct h
  | prefixed => exact .ofPrefixed h
  | call => exact .ofCall h
  | primary => exact .ofPrimary h
/-- An expression of a level is one of every looser level. -/
theorem Derives.weaken {l m : Level} {ts : List Token} {e r : Expr} (h : Derives l ts e r)
    (le : m.rank ≤ l.rank) : Derives m ts e r := by
  induction steps : l.rank - m.rank generalizing l with
  | zero =>
    have same : l = m := Level.rank_injective (by omega)
    exact same ▸ h
  | succ n ih =>
    apply ih h.loosen
    · rw [Level.rank_looser]; omega
    · rw [Level.rank_looser]; omega

/-- Nothing at the front of `ts` goes on with an expression that ends in the operand `r` and
    tolerates powers up to `n`. -/
def Follows (n : Nat) (r : Expr) (ts : List Token) : Prop :=
  ∀ t ∈ ts.head?, (ofToken t).left ≤ n ∨
    (t.kind = .groupDelimiter ∧ ¬ (t.is .openGroup ∧ r.isCallable))

theorem Follows.nil (n : Nat) (r : Expr) : Follows n r [] := by simp [Follows]
theorem follows_cons {n : Nat} {r : Expr} {t : Token} {ts : List Token} :
    Follows n r (t :: ts) ↔ (ofToken t).left ≤ n ∨
      (t.kind = .groupDelimiter ∧ ¬ (t.is .openGroup ∧ r.isCallable)) := by
  simp [Follows]
theorem Follows.mono {n m : Nat} {r : Expr} {ts : List Token} (h : Follows n r ts) (le : n ≤ m) :
    Follows m r ts :=
  fun t front => (h t front).imp_left fun bound => Nat.le_trans bound le
/-- What does not bind follows everything. -/
theorem Follows.of_left_eq_zero {n : Nat} {r : Expr} {t : Token} {ts : List Token}
    (loose : (ofToken t).left = 0) : Follows n r (t :: ts) :=
  follows_cons.mpr (.inl (by omega))
/-- Everything may stand behind a call. -/
theorem Follows.of_call_le {n : Nat} (le : 80 ≤ n) (r : Expr) (ts : List Token) : Follows n r ts :=
  fun t _ => .inl (Nat.le_trans (BindingPower.left_ofToken_le t) le)
theorem Follows.of_is {n : Nat} {r : Expr} {t : Token} {ts : List Token} {m : Mark} (found : t.is m)
    (le : (ofMark m).left ≤ n) : Follows n r (t :: ts) :=
  follows_cons.mpr (.inl (by rwa [ofToken_of_is found]))

/-! ### The operand at the right end -/

/-- A callable expression is itself the operand at its right end. -/
theorem Derives.of_callable : ∀ {l : Level} {ts : List Token} {e r : Expr},
    Derives l ts e r → e.isCallable → Derives .call ts e e ∧ r = e
  | _, _, _, _, .ofComparison h, callable => h.of_callable callable
  | _, _, _, _, .ofSum h, callable => h.of_callable callable
  | _, _, _, _, .ofProduct h, callable => h.of_callable callable
  | _, _, _, _, .ofPrefixed h, callable => h.of_callable callable
  | _, _, _, _, .ofCall h, callable => h.of_callable callable
  | _, _, _, _, .ofPrimary h, callable => h.of_callable callable
  | _, _, _, _, .call f callee t es, _ => ⟨.call f callee t es, rfl⟩
  | _, _, _, _, .identifier kind, _ => ⟨.ofPrimary (.identifier kind), rfl⟩
  | _, _, _, _, .group t h u, _ => ⟨.ofPrimary (.group t h u), rfl⟩
  | _, _, _, _, .function t u ps b, _ => ⟨.ofPrimary (.function t u ps b), rfl⟩
  | _, _, _, _, .assign .., callable | _, _, _, _, .compare .., callable
  | _, _, _, _, .add .., callable | _, _, _, _, .multiply .., callable
  | _, _, _, _, .lead .., callable | _, _, _, _, .number .., callable
  | _, _, _, _, .boolean .., callable | _, _, _, _, .string .., callable
  | _, _, _, _, .list .., callable | _, _, _, _, .table .., callable => by
    simp [Expr.isCallable] at callable
/-- On the level of calls and below, the operand at the right end is all of it. -/
theorem Derives.operand_eq : ∀ {l : Level} {ts : List Token} {e r : Expr},
    Derives l ts e r → Level.call.rank ≤ l.rank → r = e
  | _, _, _, _, .ofPrimary h, _ => h.operand_eq (by decide)
  | _, _, _, _, .call .., _ | _, _, _, _, .number .., _ | _, _, _, _, .boolean .., _
  | _, _, _, _, .string .., _ | _, _, _, _, .identifier .., _ | _, _, _, _, .group .., _
  | _, _, _, _, .function .., _ | _, _, _, _, .list .., _ | _, _, _, _, .table .., _ => rfl
  | _, _, _, _, .assign .., tight | _, _, _, _, .ofComparison _, tight
  | _, _, _, _, .compare .., tight | _, _, _, _, .ofSum _, tight | _, _, _, _, .add .., tight
  | _, _, _, _, .ofProduct _, tight | _, _, _, _, .multiply .., tight
  | _, _, _, _, .ofPrefixed _, tight | _, _, _, _, .lead .., tight | _, _, _, _, .ofCall _, tight =>
    absurd tight (by decide)

/-! ### Targets -/

theorem Target.primary : ∀ {ts : List Token} {i : Identifier},
    Target ts i → Derives .primary ts (.identifier i) (.identifier i)
  | _, _, .name kind => .identifier kind
  | _, _, .group t h u => .group t (h.primary.weaken (m := .expression) (by decide)) u
/-- A name stands in nothing but parentheses. -/
theorem Derives.target : ∀ {l : Level} {ts : List Token} {e r : Expr} {i : Identifier},
    Derives l ts e r → e = .identifier i → Target ts i
  | _, _, _, _, _, .ofComparison h, named => h.target named
  | _, _, _, _, _, .ofSum h, named => h.target named
  | _, _, _, _, _, .ofProduct h, named => h.target named
  | _, _, _, _, _, .ofPrefixed h, named => h.target named
  | _, _, _, _, _, .ofCall h, named => h.target named
  | _, _, _, _, _, .ofPrimary h, named => h.target named
  | _, _, _, _, _, .identifier kind, named => by
    cases named
    exact .name kind
  | _, _, _, _, _, .group t h u, named => by
    obtain ⟨j, inner, rfl⟩ := Expr.withSpan_eq_identifier named
    exact .group t (h.target inner) u
  | _, _, _, _, _, .assign .., named | _, _, _, _, _, .compare .., named
  | _, _, _, _, _, .add .., named | _, _, _, _, _, .multiply .., named
  | _, _, _, _, _, .lead .., named | _, _, _, _, _, .call .., named
  | _, _, _, _, _, .number .., named | _, _, _, _, _, .boolean .., named
  | _, _, _, _, _, .string .., named | _, _, _, _, _, .function .., named
  | _, _, _, _, _, .list .., named | _, _, _, _, _, .table .., named => by cases named

/-! ### The first token -/

/-- The tokens that an expression may start with. -/
def Starts (t : Token) : Prop :=
  t.kind ∈ [TokenKind.number, .boolean, .string, .identifier] ∨ (∃ op, t.is (.ofPrefix op)) ∨
    t.is .function ∨ t.is .openGroup ∨ t.is .openList
/-- The tokens that a statement may start with. -/
def StartsStatement (t : Token) : Prop := Starts t ∨ t.is .branch ∨ t.is .giveBack

theorem Target.starts {ts : List Token} {i : Identifier} (h : Target ts i) :
    ∃ t us, ts = t :: us ∧ Starts t := by
  cases h with
  | @name t kind => exact ⟨t, [], rfl, .inl (by simp [kind])⟩
  | @group t u us i first _ _ => exact ⟨t, us ++ [u], rfl, .inr (.inr (.inr (.inl first)))⟩
theorem Derives.starts : ∀ {l : Level} {ts : List Token} {e r : Expr},
    Derives l ts e r → ∃ t us, ts = t :: us ∧ Starts t
  | _, _, _, _, .assign target _ _ => by
    obtain ⟨t, us, rfl, first⟩ := target.starts
    exact ⟨t, _, rfl, first⟩
  | _, _, _, _, .ofComparison h => h.starts
  | _, _, _, _, .compare h _ _ _ => by
    obtain ⟨t, us, rfl, first⟩ := h.starts
    exact ⟨t, _, rfl, first⟩
  | _, _, _, _, .ofSum h => h.starts
  | _, _, _, _, .add h _ _ _ => by
    obtain ⟨t, us, rfl, first⟩ := h.starts
    exact ⟨t, _, rfl, first⟩
  | _, _, _, _, .ofProduct h => h.starts
  | _, _, _, _, .multiply h _ _ _ => by
    obtain ⟨t, us, rfl, first⟩ := h.starts
    exact ⟨t, _, rfl, first⟩
  | _, _, _, _, .ofPrefixed h => h.starts
  | _, _, _, _, .lead first _ => ⟨_, _, rfl, .inr (.inl ⟨_, first⟩)⟩
  | _, _, _, _, .ofCall h => h.starts
  | _, _, _, _, .call h _ _ _ => by
    obtain ⟨t, us, rfl, first⟩ := h.starts
    exact ⟨t, _, rfl, first⟩
  | _, _, _, _, .ofPrimary h => h.starts
  | _, _, _, _, .number kind _ => ⟨_, _, rfl, .inl (by simp [kind])⟩
  | _, _, _, _, .boolean kind _ => ⟨_, _, rfl, .inl (by simp [kind])⟩
  | _, _, _, _, .string kind => ⟨_, _, rfl, .inl (by simp [kind])⟩
  | _, _, _, _, .identifier kind => ⟨_, _, rfl, .inl (by simp [kind])⟩
  | _, _, _, _, .group first _ _ => ⟨_, _, rfl, .inr (.inr (.inr (.inl first)))⟩
  | _, _, _, _, .function first _ _ _ => ⟨_, _, rfl, .inr (.inr (.inl first))⟩
  | _, _, _, _, .list first _ => ⟨_, _, rfl, .inr (.inr (.inr (.inr first)))⟩
  | _, _, _, _, .table first _ _ => ⟨_, _, rfl, .inr (.inr (.inr (.inr first)))⟩
theorem Bare.starts {ts : List Token} {s : Statement} {o : Option Expr} (h : Bare ts s o) :
    ∃ t us, ts = t :: us ∧ StartsStatement t := by
  cases h with
  | branch first _ _ => exact ⟨_, _, rfl, .inr (.inl first)⟩
  | branchElse first _ _ _ _ => exact ⟨_, _, rfl, .inr (.inl first)⟩
  | giveBack first _ => exact ⟨_, _, rfl, .inr (.inr first)⟩
  | expression h =>
    obtain ⟨t, us, rfl, first⟩ := h.starts
    exact ⟨t, us, rfl, .inl first⟩
theorem Closing.starts {ts : List Token} {s : Statement} {o : Option Expr} (h : Closing ts s o) :
    ∃ t us, ts = t :: us ∧ StartsStatement t := by
  cases h with
  | closed bare _ =>
    obtain ⟨t, us, rfl, first⟩ := bare.starts
    exact ⟨t, _, rfl, first⟩
  | bare bare => exact bare.starts
/-- No expression starts with any other lexeme of a keyword, a delimiter or a separator. -/
theorem Starts.is_eq_false {t : Token} (first : Starts t) {m : Mark}
    (kind : m.kind ∉ [TokenKind.number, .boolean, .string, .identifier, .operator])
    (other : m ∉ [Mark.function, .openGroup, .openList]) : t.is m = false := by
  simp only [List.mem_cons, List.not_mem_nil, or_false, not_or] at kind other
  rcases first with plain | ⟨op, first⟩ | first | first | first
  · rw [Bool.eq_false_iff]
    intro found
    rw [Token.kind_of_is found] at plain
    simp_all
  · exact Token.is_eq_false first fun same => kind.2.2.2.2 (same ▸ rfl)
  · exact Token.is_eq_false first fun same => other.1 same.symm
  · exact Token.is_eq_false first fun same => other.2.1 same.symm
  · exact Token.is_eq_false first fun same => other.2.2 same.symm
theorem StartsStatement.is_eq_false {t : Token} (first : StartsStatement t) {m : Mark}
    (kind : m.kind ∉ [TokenKind.number, .boolean, .string, .identifier, .operator])
    (other : m ∉ [Mark.function, .openGroup, .openList, .branch, .giveBack]) : t.is m = false := by
  simp only [List.mem_cons, List.not_mem_nil, or_false, not_or] at other
  rcases first with first | first | first
  · exact first.is_eq_false kind (by simp [other])
  · exact Token.is_eq_false first fun same => other.2.2.2.1 same.symm
  · exact Token.is_eq_false first fun same => other.2.2.2.2 same.symm
theorem StartsStatement.kind_ne_finish {t : Token} (first : StartsStatement t) :
    t.kind ≠ .finish := by
  rcases first with (plain | ⟨op, first⟩ | first | first | first) | first | first
  · rintro finish
    simp [finish] at plain
  all_goals
    rw [Token.kind_of_is first]
    rintro ⟨⟩
/-- A token that starts a statement goes on with what stands before it only as the grammar
    says. -/
theorem StartsStatement.follows {t : Token} {ts : List Token} {r : Expr} (first : StartsStatement t)
    (apart : ¬ Continues r t) : Follows 1 r (t :: ts) := by
  simp only [Continues, not_or] at apart
  rcases first with (plain | ⟨op, first⟩ | first | first | first) | first | first
  · apply Follows.of_left_eq_zero
    rw [BindingPower.ofToken_of_kind]
    · rfl
    all_goals
      intro kind
      simp [kind] at plain
  · cases op with
    | plus => exact absurd first apart.1
    | minus => exact absurd first apart.2.1
    | bang => exact .of_is first (by decide)
  · exact .of_is first (by decide)
  · exact follows_cons.mpr (.inr ⟨Token.kind_of_is first, apart.2.2⟩)
  all_goals exact .of_is first (by decide)

end Grammar
end KoreanScript
