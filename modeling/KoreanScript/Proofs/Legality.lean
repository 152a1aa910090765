import Mathlib
import KoreanScript.Proofs.Cut
import KoreanScript.Proofs.Recognition

/-!
Which tokens a program may have, and which of them the parser blames. Four tables have to
fit together: what the scanner makes of a text, what binds behind an expression, which
operators there are, and what a literal can denote. A program has only legal tokens; and
of the errors that a table could raise, the tokens of a text raise only that of a number
with two points.
-/
namespace KoreanScript

/-- Whether a token can stand in a program: it is one that the language has, and if it is a literal
    then its text denotes something. -/
structure Token.Legal (t : Token) : Prop where
  known : t.kind ≠ .illegal ∧ t.kind ≠ .illegalString
  number : t.kind = .number → (Decimal.read? t.value).isSome
  boolean : t.kind = .boolean → (Word.toBool? t.value).isSome

/-- Whether it is for a table that something was wrong, not for the place of a token. -/
def ParseError.Cause.lexical : Cause → Bool
  | numberLiteral _ | booleanLiteral _ | infixOperator _ => true
  | _ => false

/-- The errors that some tokens can raise: if a table raises the error, it is for the lexeme of one
    of the tokens. -/
inductive Raised (ts : List Token) : ParseError → Prop
  | number {t : Token} : t ∈ ts → t.kind = .number → Decimal.read? t.value = none →
    Raised ts ⟨.numberLiteral t.value, t.span⟩
  | boolean {t : Token} : t ∈ ts → t.kind = .boolean → Word.toBool? t.value = none →
    Raised ts ⟨.booleanLiteral t.value, t.span⟩
  | infixOperator {t : Token} : t ∈ ts → t.kind = .operator → ¬ t.is .assignment →
    0 < (BindingPower.ofToken t).left → InfixOperator.ofLexeme? t.value = none →
    Raised ts ⟨.infixOperator t.value, t.span⟩
  | other {e : ParseError} : e.cause.lexical = false → Raised ts e

/-- Whether what was read off the front of some tokens is as it should be: the tokens taken are legal,
    and an error is one that the tokens can raise. -/
structure Checked {α : Type} (ts : List Token) (x : Except ParseError (α × List Token)) : Prop where
  raised : ∀ e, x = .error e → Raised ts e
  legal : ∀ a us, x = .ok (a, us) → ∃ used, ts = used ++ us ∧ ∀ t ∈ used, t.Legal

variable {α β : Type} {s : Span} {t : Token} {ts us : List Token}

theorem Token.Legal.of_kind (other : t.kind ∉ [.illegal, .illegalString, .number, .boolean]) : t.Legal := by
  simp only [List.mem_cons, List.not_mem_nil, or_false, not_or] at other
  obtain ⟨illegal, unclosed, number, boolean⟩ := other
  exact ⟨⟨illegal, unclosed⟩, fun kind => absurd kind number, fun kind => absurd kind boolean⟩
theorem Token.Legal.of_is {m : Mark} (found : t.is m)
    (other : m.kind ∉ [.illegal, .illegalString, .number, .boolean]) : t.Legal :=
  .of_kind (kind_of_is found ▸ other)
theorem Raised.mono {e : ParseError} (raised : Raised ts e) (sub : ts ⊆ us) : Raised us e := by
  cases raised with
  | number inside kind unread => exact .number (sub inside) kind unread
  | boolean inside kind unread => exact .boolean (sub inside) kind unread
  | infixOperator inside kind other binds unread => exact .infixOperator (sub inside) kind other binds unread
  | other cause => exact .other cause

/-! ### Readers -/

namespace Checked

theorem fail {e : ParseError} (raised : Raised ts e) : Checked (α := α) ts (.error e) := by
  refine ⟨fun d same => ?_, fun a us same => ?_⟩
  · cases same
    exact raised
  · cases same
theorem done (a : α) (ts : List Token) : Checked ts (.ok (a, ts)) := by
  refine ⟨fun e same => ?_, fun b us same => ?_⟩
  · cases same
  · cases same
    exact ⟨[], rfl, by simp⟩
/-- A legal token in front of what is read is taken with it. -/
theorem behind {x : Except ParseError (α × List Token)} (legal : t.Legal) (rest : Checked ts x) :
    Checked (t :: ts) x := by
  refine ⟨fun e failed => (rest.raised e failed).mono (List.subset_cons_self t ts), fun a us read => ?_⟩
  obtain ⟨used, rfl, all⟩ := rest.legal a us read
  exact ⟨t :: used, rfl, List.forall_mem_cons.mpr ⟨legal, all⟩⟩
theorem bind {x : Except ParseError (α × List Token)} {f : α × List Token → Except ParseError (β × List Token)}
    (first : Checked ts x) (rest : ∀ a us, x = .ok (a, us) → Checked us (f (a, us))) : Checked ts (x >>= f) := by
  refine ⟨fun e failed => ?_, fun b vs read => ?_⟩
  · rcases bind_eq_error.mp failed with failed | ⟨⟨a, us⟩, read, failed⟩
    · exact first.raised e failed
    · obtain ⟨used, rfl, _⟩ := first.legal a us read
      exact ((rest a us read).raised e failed).mono (List.subset_append_right used us)
  · obtain ⟨⟨a, us⟩, read, behind⟩ := bind_eq_ok.mp read
    obtain ⟨used, rfl, all⟩ := first.legal a us read
    obtain ⟨used', rfl, all'⟩ := (rest a us read).legal b vs behind
    exact ⟨used ++ used', (List.append_assoc ..).symm, List.forall_mem_append.mpr ⟨all, all'⟩⟩

end Checked

theorem expect_checked {m : Mark} (known : m.kind ∉ [TokenKind.illegal, .illegalString, .number, .boolean])
    (ts : List Token) : Checked ts (Read.expect s m ts) := by
  cases ts with
  | nil => exact .fail (.other rfl)
  | cons t ts =>
    rw [Read.expect_cons]
    by_cases found : t.is m
    · rw [if_pos found]
      exact .behind (.of_is found known) (.done t ts)
    · rw [if_neg found]
      exact .fail (.other rfl)
theorem parameter_checked (ts : List Token) : Checked ts (Read.parameter s ts) := by
  cases ts with
  | nil => exact .fail (.other rfl)
  | cons t ts =>
    rw [Read.parameter_cons]
    by_cases named : t.kind = .identifier
    · rw [if_pos named]
      exact .behind (.of_kind (by rw [named]; decide)) (.done _ ts)
    · rw [if_neg named]
      exact .fail (.other rfl)

theorem skipSemicolon_checked (a : α) (ts : List Token) : Checked ts (.ok (a, Parse.skipSemicolon ts)) := by
  cases ts with
  | nil => exact .done a []
  | cons t ts =>
    simp only [Parse.skipSemicolon]
    by_cases closed : t.is .semicolon
    · rw [if_pos closed]
      exact .behind (.of_is closed (by decide)) (.done a ts)
    · rw [if_neg closed]
      exact .done a (t :: ts)

section
variable {close : Mark} (known : close.kind ∉ [TokenKind.illegal, .illegalString, .number, .boolean])
  {item : (ts : List Token) → Parse.Answer α ts.length}
include known

theorem items_checked (each : ∀ us, us.length ≤ ts.length → Checked us (Parse.plain (item us))) :
    Checked ts (Read.items s close item ts) := by
  induction size : ts.length using Nat.strongRecOn generalizing ts with
  | _ n ih =>
    subst size
    rw [Read.items_eq]
    refine (each ts (Nat.le_refl _)).bind fun a us read => ?_
    have shorter := Parse.length_of_plain read
    cases us with
    | nil => exact .fail (.other rfl)
    | cons t us =>
      simp only [List.length_cons] at shorter
      by_cases closed : t.is close
      · simp only [if_pos closed]
        exact .behind (.of_is closed known) (.done _ us)
      by_cases more : t.is .comma
      · simp only [if_neg closed, if_pos more]
        have rest := ih us.length (by omega) (fun vs le => each vs (by omega)) rfl
        exact .behind (.of_is more (by decide)) (rest.bind fun _ vs _ => .done _ vs)
      · simp only [if_neg closed, if_neg more]
        exact .fail (.other rfl)
theorem sequence_checked (each : ∀ us, us.length ≤ ts.length → Checked us (Parse.plain (item us))) :
    Checked ts (Read.sequence s close item ts) := by
  cases ts with
  | nil =>
    rw [Read.sequence_nil]
    exact items_checked known each
  | cons t ts =>
    rw [Read.sequence_cons]
    by_cases closed : t.is close
    · rw [if_pos closed]
      exact .behind (.of_is closed known) (.done _ ts)
    · rw [if_neg closed]
      exact items_checked known each

end

/-- Whether expressions and blocks are read as they should be off fewer than `n` tokens. -/
def CheckedBelow (s : Span) (n : Nat) : Prop :=
  ∀ ts, ts.length < n → (∀ p, Checked ts (Read.expression s p ts)) ∧ Checked ts (Read.block s ts)

/-! ### Expressions -/

section
variable {n : Nat} (below : CheckedBelow s n)
include below

theorem elements_checked {close : Mark} (known : close.kind ∉ [TokenKind.illegal, .illegalString, .number, .boolean])
    (bound : ts.length < n) : Checked ts (Read.sequence s close (Parse.expression s .lowest) ts) :=
  sequence_checked known fun us le => (below us (by omega)).1 .lowest
theorem entry_checked (bound : ts.length < n) : Checked ts (Read.entry s ts) := by
  rw [Read.entry_eq]
  refine ((below ts bound).1 .lowest).bind fun key us read => ?_
  have shorter := Parse.length_of_plain read
  refine (expect_checked (by decide) us).bind fun _ vs read' => ?_
  have shorter' := Parse.length_of_plain read'
  exact ((below vs (by omega)).1 .lowest).bind fun _ ws _ => .done _ ws
theorem opened_checked (t : Token) (bound : ts.length < n) :
    Checked (t :: ts) (Read.opened s t ts) := by
  unfold Read.opened
  by_cases function : t.is .function
  · rw [if_pos function]
    refine .behind (.of_is function (by decide)) ((expect_checked (by decide) ts).bind fun _ us read => ?_)
    have shorter := Parse.length_of_plain read
    refine (sequence_checked (by decide) fun vs _ => parameter_checked vs).bind fun _ vs read' => ?_
    have shorter' := Parse.length_of_plain read'
    exact (below vs (by omega)).2.bind fun _ ws _ => .done _ ws
  by_cases group : t.is .openGroup
  · rw [if_neg function, if_pos group]
    refine .behind (.of_is group (by decide)) (((below ts bound).1 .lowest).bind fun _ us _ => ?_)
    exact (expect_checked (by decide) us).bind fun _ vs _ => .done _ vs
  by_cases list : t.is .openList
  · rw [if_neg function, if_neg group, if_pos list]
    refine .behind (.of_is list (by decide)) ?_
    cases ts with
    | nil => exact .fail (.other rfl)
    | cons u us =>
      simp only [List.length_cons] at bound
      by_cases table : u.is .tableMarker
      · simp only [if_pos table]
        have entries : Checked us (Read.sequence s .closeList (Parse.entry s) us) :=
          sequence_checked (by decide) fun vs le => entry_checked below (by omega)
        exact .behind (.of_is table (by decide)) (entries.bind fun _ vs _ => .done _ vs)
      · simp only [if_neg table]
        have elements : Checked (u :: us) (Read.sequence s .closeList (Parse.expression s .lowest) (u :: us)) :=
          elements_checked below (by decide) bound
        exact elements.bind fun _ vs _ => .done _ vs
  · rw [if_neg function, if_neg group, if_neg list]
    exact .fail (.other rfl)
theorem start_checked (bound : ts.length < n + 1) : Checked ts (Read.start s ts) := by
  cases ts with
  | nil =>
    rw [Read.start_nil]
    exact .fail (.other rfl)
  | cons t ts =>
    have less : ts.length < n := by simpa using bound
    rw [Read.start_cons]
    cases kind : t.kind with
    | number =>
      cases read : Decimal.read? t.value with
      | none => exact .fail (.number List.mem_cons_self kind read)
      | some x =>
        have legal : t.Legal := ⟨by simp [kind], fun _ => by simp [read], by simp [kind]⟩
        exact .behind legal (.done _ ts)
    | boolean =>
      cases read : Word.toBool? t.value with
      | none => exact .fail (.boolean List.mem_cons_self kind read)
      | some b =>
        have legal : t.Legal := ⟨by simp [kind], by simp [kind], fun _ => by simp [read]⟩
        exact .behind legal (.done _ ts)
    | string => exact .behind (.of_kind (by rw [kind]; decide)) (.done _ ts)
    | identifier => exact .behind (.of_kind (by rw [kind]; decide)) (.done _ ts)
    | operator =>
      cases PrefixOperator.ofLexeme? t.value with
      | none => exact .fail (.other rfl)
      | some op =>
        have operand := (below ts less).1 .leading
        exact .behind (.of_kind (by rw [kind]; decide)) (operand.bind fun _ us _ => .done _ us)
    | keyword | groupDelimiter | blockDelimiter | listDelimiter | separator | illegal | illegalString | finish =>
      exact opened_checked below t less
/-- What is read behind an expression. An operator without a meaning between operands is blamed
    only if it binds. -/
theorem extend_checked (p : BindingPower) (e : Expr) (bound : ts.length < n + 1) :
    Checked ts (Read.extend s p e ts) := by
  induction size : ts.length using Nat.strongRecOn generalizing ts e with
  | _ m ih =>
    subst size
    cases ts with
    | nil =>
      rw [Read.extend_nil]
      exact .done e []
    | cons t ts =>
      have less : ts.length < n := by simpa using bound
      rw [Read.extend_cons]
      by_cases weak : (BindingPower.ofToken t).left ≤ p.right
      · rw [if_pos weak]
        exact .done e (t :: ts)
      by_cases group : t.kind = .groupDelimiter
      · rw [if_neg weak, if_pos group]
        by_cases call : t.is .openGroup ∧ e.isCallable
        · rw [if_pos call]
          refine .behind (.of_is call.1 (by decide)) ((elements_checked below (by decide) less).bind fun _ us read => ?_)
          have shorter := Parse.length_of_plain read
          exact ih us.length (by simp only [List.length_cons]; omega) _ (by omega) rfl
        · rw [if_neg call]
          exact .done e (t :: ts)
      rw [if_neg weak, if_neg group]
      have kind : t.kind = .operator := (BindingPower.kind_of_left_pos (by omega)).resolve_right group
      have legal : t.Legal := .of_kind (by rw [kind]; decide)
      by_cases assigns : t.is .assignment
      · rw [if_pos assigns]
        cases e with
        | identifier i =>
          refine .behind legal (((below ts less).1 .assignment).bind fun _ us read => ?_)
          have shorter := Parse.length_of_plain read
          exact ih us.length (by simp only [List.length_cons]; omega) _ (by omega) rfl
        | number _ _ | boolean _ _ | string _ _ | prefixed _ _ _ | binary _ _ _ _ | function _ _ _ | call _ _ _
        | assignment _ _ _ | list _ _ | table _ _ => exact .fail (.other rfl)
      rw [if_neg assigns]
      cases found : InfixOperator.ofLexeme? t.value with
      | none => exact .fail (.infixOperator List.mem_cons_self kind assigns (by omega) found)
      | some op =>
        refine .behind legal (((below ts less).1 _).bind fun _ us read => ?_)
        have shorter := Parse.length_of_plain read
        exact ih us.length (by simp only [List.length_cons]; omega) _ (by omega) rfl
theorem expression_checked (p : BindingPower) (bound : ts.length < n + 1) : Checked ts (Read.expression s p ts) := by
  rw [Read.expression_eq]
  refine (start_checked below bound).bind fun e us read => ?_
  have shorter := Parse.length_of_plain read
  exact extend_checked below p e (by omega)

/-! ### Statements -/

theorem bareStatement_checked (bound : ts.length < n + 1) : Checked ts (Read.bareStatement s ts) := by
  cases ts with
  | nil =>
    rw [Read.bareStatement_nil]
    exact .fail (.other rfl)
  | cons t ts =>
    have less : ts.length < n := by simpa using bound
    rw [Read.bareStatement_cons]
    by_cases branch : t.is .branch
    · rw [if_pos branch]
      refine .behind (.of_is branch (by decide)) (((below ts less).1 .lowest).bind fun p us read => ?_)
      have shorter := Parse.length_of_plain read
      refine (below us (by omega)).2.bind fun b vs read' => ?_
      have shorter' := Parse.length_of_plain read'
      cases vs with
      | nil => exact .done _ []
      | cons u vs =>
        simp only [List.length_cons] at shorter'
        by_cases other : u.is .otherwise
        · simp only [if_pos other]
          exact .behind (.of_is other (by decide)) ((below vs (by omega)).2.bind fun _ ws _ => .done _ ws)
        · simp only [if_neg other]
          exact .done _ (u :: vs)
    by_cases returns : t.is .giveBack
    · rw [if_neg branch, if_pos returns]
      exact .behind (.of_is returns (by decide)) (((below ts less).1 .lowest).bind fun _ us _ => .done _ us)
    by_cases other : t.is .otherwise
    · rw [if_neg branch, if_neg returns, if_pos other]
      exact .fail (.other rfl)
    · rw [if_neg branch, if_neg returns, if_neg other]
      exact (expression_checked below .lowest bound).bind fun _ us _ => .done _ us
theorem statement_checked (bound : ts.length < n + 1) : Checked ts (Read.statement s ts) := by
  rw [Read.statement_eq]
  exact (bareStatement_checked below bound).bind fun a us _ => skipSemicolon_checked a us
theorem blockTail_checked (bound : ts.length < n + 1) : Checked ts (Read.blockTail s ts) := by
  induction size : ts.length using Nat.strongRecOn generalizing ts with
  | _ m ih =>
    subst size
    cases ts with
    | nil =>
      rw [Read.blockTail_nil]
      exact .fail (.other rfl)
    | cons t ts =>
      rw [Read.blockTail_cons]
      by_cases closes : t.is .closeBlock
      · rw [if_pos closes]
        exact .behind (.of_is closes (by decide)) (.done _ ts)
      by_cases finish : t.kind = .finish
      · rw [if_neg closes, if_pos finish]
        exact .fail (.other rfl)
      · rw [if_neg closes, if_neg finish]
        refine (statement_checked below bound).bind fun _ us read => ?_
        have shorter := Read.length_statement s read
        exact (ih us.length shorter (by omega) rfl).bind fun _ vs _ => .done _ vs
theorem block_checked (bound : ts.length < n + 1) : Checked ts (Read.block s ts) := by
  rw [Read.block_eq]
  refine (expect_checked (by decide) ts).bind fun _ us read => ?_
  have shorter := Parse.length_of_plain read
  exact (blockTail_checked below (by omega)).bind fun _ vs _ => .done _ vs

end

theorem checkedBelow (s : Span) (n : Nat) : CheckedBelow s n := by
  induction n with
  | zero => exact fun ts short => absurd short (Nat.not_lt_zero _)
  | succ n ih => exact fun ts bound => ⟨fun p => expression_checked ih p bound, block_checked ih bound⟩
/-- What a program has in front of its end is legal, and what is refused is blamed for what it is. -/
theorem statements_checked (s : Span) (ts : List Token) :
    (∀ e, Parse.statements s ts = .error e → Raised ts e) ∧
      ∀ r, Parse.statements s ts = .ok r → (∀ t ∈ ts, t.kind ≠ .finish) → ∀ t ∈ ts, t.Legal := by
  induction size : ts.length using Nat.strongRecOn generalizing ts with
  | _ n ih =>
    subst size
    cases ts with
    | nil =>
      rw [Read.statements_nil]
      exact ⟨fun _ failed => (by cases failed), by simp⟩
    | cons t ts =>
      rw [Read.statements_cons]
      by_cases finish : t.kind = .finish
      · rw [if_pos finish]
        exact ⟨fun _ failed => (by cases failed), fun _ _ endless => absurd finish (endless t List.mem_cons_self)⟩
      rw [if_neg finish]
      have first : Checked (t :: ts) (Read.statement s (t :: ts)) :=
        statement_checked (checkedBelow s (t :: ts).length) (Nat.lt_succ_self _)
      refine ⟨fun e failed => ?_, fun r read endless => ?_⟩
      · rcases bind_eq_error.mp failed with failed | ⟨⟨a, us⟩, read, failed⟩
        · exact first.raised e failed
        · obtain ⟨used, split, _⟩ := first.legal a us read
          have later : Parse.statements s us = .error e := by
            rcases bind_eq_error.mp failed with failed | ⟨_, _, done⟩
            · exact failed
            · cases done
          have raised := (ih us.length (Read.length_statement s read) us rfl).1 e later
          exact split ▸ raised.mono (List.subset_append_right used us)
      · obtain ⟨⟨a, us⟩, read, behind⟩ := bind_eq_ok.mp read
        obtain ⟨r, later, _⟩ := bind_eq_ok.mp behind
        obtain ⟨used, split, legal⟩ := first.legal a us read
        rw [split] at endless ⊢
        have rest := (ih us.length (Read.length_statement s read) us rfl).2 r later
        exact List.forall_mem_append.mpr ⟨legal, rest (List.forall_mem_append.mp endless).2⟩

/-! ### The tokens of a text -/

/-- The tokens of a text are spelled as tokens of their kinds are. -/
theorem Cut.spelled {opened : Bool} {p : Position} {cs : List Char} (cut : Cut opened p cs ts) :
    ∀ t ∈ ts, ∃ run, t.kind.Spells t.value.toList run := by
  induction cut with
  | nil opened p => simp
  | blank opened _ _ ih => exact ih
  | @lexeme opened p l rest ts fits _ ih =>
    refine List.forall_mem_cons.mpr ⟨⟨l.run, ?_⟩, ih⟩
    rw [Lexeme.toToken, String.toList_ofList]
    exact fits.spells
/-- The scanner takes for truth values only words that denote one. -/
theorem toBool?_of_spelled {run : List Char} (kind : t.kind = .boolean) (spelled : t.kind.Spells t.value.toList run) :
    (Word.toBool? t.value).isSome := by
  rw [kind] at spelled
  obtain ⟨_, _, member⟩ := spelled
  rw [String.ofList_toList] at member
  have known : ∀ w ∈ Word.booleans, (Word.toBool? w).isSome := by decide
  exact known t.value member
/-- An operator of a text that binds behind an expression assigns or stands between operands. -/
theorem ofLexeme?_of_spelled {run : List Char} (kind : t.kind = .operator) (spelled : t.kind.Spells t.value.toList run)
    (other : ¬ t.is .assignment) (binds : 0 < (BindingPower.ofToken t).left) :
    (InfixOperator.ofLexeme? t.value).isSome := by
  rw [kind] at spelled
  have known : ∀ cs ∈ (Lexeme.joinsEquals ++ ['+', '-', '*', '/']).map (fun c => [c]) ++
      Lexeme.joinsEquals.map (fun c => [c, '=']), String.ofList cs ≠ "=" →
        0 < (BindingPower.ofLexeme (String.ofList cs)).left → (InfixOperator.ofLexeme? (String.ofList cs)).isSome := by decide
  have value := known t.value.toList (by
    rcases spelled.2 with ⟨c, member, same⟩ | ⟨c, member, same⟩
    · exact List.mem_append_left _ (List.mem_map.mpr ⟨c, member, same.symm⟩)
    · exact List.mem_append_right _ (List.mem_map.mpr ⟨c, member, same.symm⟩))
  rw [String.ofList_toList] at value
  refine value (fun same => other (Token.is_iff.mpr ⟨kind, same⟩)) ?_
  simpa [BindingPower.ofToken, kind] using binds

/-! ### The main result -/

/-- The tables fit together. No text is refused for an operator that binds without standing between
    operands or for a truth value that is none, and if one is refused for a number, then that is a
    token with two points at least. A text with a number like that, with a character that begins no
    lexeme or with a string that is not closed is no program. -/
theorem Program.ofSource_legal (source : String) :
    (∀ e, ofSource source = .error e →
      (∀ lexeme, e.cause ≠ .infixOperator lexeme) ∧ (∀ text, e.cause ≠ .booleanLiteral text) ∧
      ∀ text, e.cause = .numberLiteral text →
        ∃ t ∈ (Token.scan source).tokens, t.kind = .number ∧ t.value = text ∧ t.span = e.span ∧
          2 ≤ text.toList.count '.') ∧
    ∀ t ∈ (Token.scan source).tokens,
      t.kind = .illegal ∨ t.kind = .illegalString ∨ (t.kind = .number ∧ 2 ≤ t.value.toList.count '.') →
        ∃ e, ofSource source = .error e := by
  have checked := statements_checked (Token.scan source).finish (Token.scan source).tokens
  have spelled := (Cut.scanFrom false .origin source.toList).spelled
  have pointed : ∀ t ∈ (Token.scan source).tokens, t.kind = .number →
      (Decimal.read? t.value = none ↔ 2 ≤ t.value.toList.count '.') := by
    intro t inside kind
    rw [Program.read?_of_number inside kind]
    by_cases few : t.value.toList.count '.' ≤ 1
    · rw [if_pos few]
      exact iff_of_false (by simp) (by omega)
    · rw [if_neg few]
      exact iff_of_true rfl (by omega)
  refine ⟨fun e failed => ?_, fun t inside alien => ?_⟩
  · have refused : Parse.statements _ _ = .error e := error_of_bind_ok failed fun _ => ⟨_, rfl⟩
    cases checked.1 e refused with
    | @number t inside kind unread =>
      refine ⟨by simp, by simp, fun text same => ?_⟩
      cases same
      exact ⟨t, inside, kind, rfl, rfl, (pointed t inside kind).mp unread⟩
    | @boolean t inside kind unread =>
      obtain ⟨run, spells⟩ := spelled t inside
      simpa [unread] using toBool?_of_spelled kind spells
    | @infixOperator t inside kind other binds unread =>
      obtain ⟨run, spells⟩ := spelled t inside
      simpa [unread] using ofLexeme?_of_spelled kind spells other binds
    | other cause =>
      refine ⟨fun lexeme same => ?_, fun text same => ?_, fun text same => ?_⟩
      all_goals
        rw [same] at cause
        cases cause
  · cases read : ofSource source with
    | error e => exact ⟨e, rfl⟩
    | ok p =>
      obtain ⟨r, read, _⟩ := bind_eq_ok.mp read
      have legal := checked.2 r read (Program.kind_ne_finish_of_scan source) t inside
      rcases alien with illegal | unclosed | ⟨kind, many⟩
      · exact absurd illegal legal.known.1
      · exact absurd unclosed legal.known.2
      · simpa [(pointed t inside kind).mpr many] using legal.number kind

set_option maxRecDepth 100000 in
/-- A number with two points, and a string that is not closed. -/
theorem Program.ofSource_legal_points :
    let e : ParseError := ⟨.numberLiteral "1.2.3", ⟨⟨0, 4⟩, ⟨0, 8⟩⟩⟩
    let t : Token := ⟨.illegalString, "y", ⟨⟨0, 2⟩, ⟨0, 3⟩⟩⟩
    ofSource "x + 1.2.3" = .error e ∧
      (∃ t ∈ (Token.scan "x + 1.2.3").tokens, t.kind = .number ∧ t.value = "1.2.3" ∧ t.span = e.span ∧
        2 ≤ "1.2.3".toList.count '.') ∧
      t ∈ (Token.scan "x 'y").tokens ∧ ∃ e, ofSource "x 'y" = .error e := by
  intro e t
  have failed : ofSource "x + 1.2.3" = .error e := by cbv
  have inside : t ∈ (Token.scan "x 'y").tokens := by
    have tokens : (Token.scan "x 'y").tokens = [⟨.identifier, "x", .origin⟩, t] := by cbv
    simp [tokens]
  exact ⟨failed, ((ofSource_legal _).1 e failed).2.2 _ rfl, inside, (ofSource_legal _).2 t inside (.inr (.inl rfl))⟩

end KoreanScript
