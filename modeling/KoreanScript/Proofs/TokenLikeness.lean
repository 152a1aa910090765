import KoreanScript.Proofs.Likeness
import KoreanScript.Proofs.Reading

/-!
Tokens that are alike: of one kind and one value, at spans that stand in for each
other. The parser joins spans and never looks at them, so it makes trees that are
alike of lists of such tokens, or refuses both lists for one cause.
-/
namespace KoreanScript

namespace Likeness

/-- Whether spans may be joined: what is joined of spans that stand in for each other does so
    too, and all names count. -/
structure Joins (L : Likeness) : Prop where
  through {a b c d : Span} : L.spans a b → L.spans c d → L.spans (a.through c) (b.through d)
  names (n : String) : L.names n

theorem upToSpans_joins : upToSpans.Joins := ⟨fun _ _ => trivial, fun _ => trivial⟩

end Likeness

structure Token.Alike (L : Likeness) (t u : Token) : Prop where
  kind : t.kind = u.kind
  value : t.value = u.value
  span : L.spans t.span u.span

/-- Lists of tokens that are alike one by one. -/
abbrev Token.AllAlike (L : Likeness) : List Token → List Token → Prop := List.Forall₂ (Token.Alike L)

theorem Expr.AllAlike.of_forall₂ {L : Likeness} {ds es : List Expr} (alike : List.Forall₂ (Expr.Alike L) ds es) :
    Expr.AllAlike L ds es := by
  induction alike with
  | nil => exact .nil
  | cons first _ ih => exact .cons first ih

/-- Entries of table literals that are alike. -/
def Expr.EntryAlike (L : Likeness) (a b : Expr × Expr) : Prop := a.1.Alike L b.1 ∧ a.2.Alike L b.2

theorem Expr.EntriesAlike.of_forall₂ {L : Likeness} {ds es : List (Expr × Expr)}
    (alike : List.Forall₂ (Expr.EntryAlike L) ds es) : Expr.EntriesAlike L ds es := by
  induction alike with
  | nil => exact .nil
  | cons first _ ih => exact .cons first.1 first.2 ih

/-- Results that are alike: both are there and related, or both are refused for one cause. -/
inductive Parse.Agree (L : Likeness) {α β : Type} (R : α → β → Prop) :
    Except ParseError α → Except ParseError β → Prop
  | ok {a : α} {b : β} : R a b → Parse.Agree L R (.ok a) (.ok b)
  | error (cause : ParseError.Cause) {s t : Span} :
    L.spans s t → Parse.Agree L R (.error ⟨cause, s⟩) (.error ⟨cause, t⟩)

/-- What is read off the front of tokens, and the rest of them. -/
def Parse.Rest (L : Likeness) {α β : Type} (R : α → β → Prop) (x : α × List Token) (y : β × List Token) : Prop :=
  R x.1 y.1 ∧ Token.AllAlike L x.2 y.2

namespace Parse

theorem Agree.bind {L : Likeness} {α β α' β' : Type} {R : α → β → Prop} {R' : α' → β' → Prop}
    {x : Except ParseError α} {y : Except ParseError β} {f : α → Except ParseError α'} {g : β → Except ParseError β'}
    (first : Agree L R x y) (rest : ∀ a b, x = .ok a → R a b → Agree L R' (f a) (g b)) :
    Agree L R' (x >>= f) (y >>= g) := by
  cases first with
  | ok related => exact rest _ _ rfl related
  | error cause spans => exact .error cause spans
/-- Reading one thing after the other. -/
theorem Agree.andThen {L : Likeness} {α β α' β' : Type} {R : α → β → Prop} {R' : α' → β' → Prop}
    {x : Except ParseError (α × List Token)} {y : Except ParseError (β × List Token)}
    {f : α × List Token → Except ParseError α'} {g : β × List Token → Except ParseError β'}
    (first : Agree L (Rest L R) x y)
    (rest : ∀ a b ts us, x = .ok (a, ts) → R a b → Token.AllAlike L ts us → Agree L R' (f (a, ts)) (g (b, us))) :
    Agree L R' (x >>= f) (y >>= g) :=
  first.bind fun _ _ read related => rest _ _ _ _ read related.1 related.2
theorem Agree.mono {L : Likeness} {α β : Type} {R R' : α → β → Prop} {x : Except ParseError α}
    {y : Except ParseError β} (agree : Agree L R x y) (weaker : ∀ a b, R a b → R' a b) : Agree L R' x y := by
  cases agree with
  | ok related => exact .ok (weaker _ _ related)
  | error cause spans => exact .error cause spans

end Parse

namespace Read
open Parse (Agree Rest plain)

variable {L : Likeness} (joins : L.Joins) {s t : Span} (stops : L.spans s t)

section
variable {u v : Token} (alike : u.Alike L v)
include alike

theorem is_alike (m : Mark) : u.is m = v.is m := by
  rw [Token.is, Token.is, alike.kind, alike.value]
theorem power_alike : BindingPower.ofToken u = BindingPower.ofToken v := by
  rw [BindingPower.ofToken, BindingPower.ofToken, alike.kind, alike.value]
theorem ofDelimiter_agree {α β : Type} (R : α → β → Prop) (m : Mark) :
    Agree L R (.error (.ofDelimiter u m)) (.error (.ofDelimiter v m)) := by
  simp only [ParseError.ofDelimiter, ParseError.missing, Token.display, alike.kind, alike.value]
  exact .error _ alike.span

end

include stops in
theorem finish_alike : (Token.finish s).Alike L (Token.finish t) := ⟨rfl, rfl, stops⟩

include stops in
theorem expect_agree (m : Mark) {ts us : List Token} (tokens : Token.AllAlike L ts us) :
    Agree L (Rest L (Token.Alike L)) (expect s m ts) (expect t m us) := by
  cases tokens with
  | nil =>
    rw [expect_nil, expect_nil]
    exact ofDelimiter_agree (finish_alike stops) _ m
  | cons alike tokens =>
    rw [expect_cons, expect_cons, is_alike alike]
    split
    · exact .ok ⟨alike, tokens⟩
    · exact ofDelimiter_agree alike _ m
include joins stops in
theorem parameter_agree {ts us : List Token} (tokens : Token.AllAlike L ts us) :
    Agree L (Rest L L.Named) (parameter s ts) (parameter t us) := by
  cases tokens with
  | nil =>
    rw [parameter_nil, parameter_nil]
    exact .error _ stops
  | cons alike tokens =>
    rw [parameter_cons, parameter_cons, Token.display, Token.display, alike.kind, alike.value]
    split
    · exact .ok ⟨⟨rfl, joins.names _, alike.span⟩, tokens⟩
    · exact .error _ alike.span

/-! ### Sequences -/

section
variable {α β : Type} {R : α → β → Prop} {n : Nat} {item : (ts : List Token) → Parse.Answer α ts.length}
  {item' : (ts : List Token) → Parse.Answer β ts.length}
  (agree : ∀ ts us, ts.length < n → Token.AllAlike L ts us → Agree L (Rest L R) (plain (item ts)) (plain (item' us)))
include stops agree

/-- Items and the span of their closing mark, read by readers that agree on fewer than `n` tokens. -/
theorem items_agree (close : Mark) {ts us : List Token} (bound : ts.length < n) (tokens : Token.AllAlike L ts us) :
    Agree L (Rest L fun x y => List.Forall₂ R x.1 y.1 ∧ L.spans x.2 y.2)
      (items s close item ts) (items t close item' us) := by
  induction size : ts.length using Nat.strongRecOn generalizing ts us with
  | _ m ih =>
    subst size
    rw [items_eq, items_eq]
    refine (agree ts us bound tokens).andThen ?_
    rintro a b ts' us' read related behind
    have shorter := Parse.length_of_plain read
    cases behind with
    | nil => exact ofDelimiter_agree (finish_alike stops) _ close
    | cons alike behind =>
      simp only [List.length_cons] at shorter
      simp only [is_alike alike]
      split
      · exact .ok ⟨⟨.cons related .nil, alike.span⟩, behind⟩
      split
      · refine (ih _ (by omega) (by omega) behind rfl).andThen ?_
        rintro ⟨as, last⟩ ⟨bs, last'⟩ _ _ _ ⟨all, spans⟩ behind
        exact .ok ⟨⟨.cons related all, spans⟩, behind⟩
      · exact ofDelimiter_agree alike _ close
theorem sequence_agree (close : Mark) {ts us : List Token} (bound : ts.length < n) (tokens : Token.AllAlike L ts us) :
    Agree L (Rest L fun x y => List.Forall₂ R x.1 y.1 ∧ L.spans x.2 y.2)
      (sequence s close item ts) (sequence t close item' us) := by
  have items := items_agree stops agree close bound tokens
  cases tokens with
  | nil =>
    rw [sequence_nil, sequence_nil]
    exact items
  | cons alike tokens =>
    rw [sequence_cons, sequence_cons, is_alike alike]
    split
    · exact .ok ⟨⟨.nil, alike.span⟩, tokens⟩
    · exact items

end

/-! ### Expressions

Everything below is shown under the hypothesis that lists of fewer tokens make trees
that are alike. -/

/-- Whether what is read off the front of lists that are alike and shorter than `n` is alike. -/
def AlikeBelow (L : Likeness) (s t : Span) (n : Nat) : Prop :=
  ∀ ts us, ts.length < n → Token.AllAlike L ts us →
    (∀ p, Agree L (Rest L (Expr.Alike L)) (expression s p ts) (expression t p us)) ∧
      Agree L (Rest L (Block.Alike L)) (block s ts) (block t us)

section
variable {n : Nat} (below : AlikeBelow L s t n)

include stops below in
theorem elements_agree (close : Mark) {ts us : List Token} (bound : ts.length < n) (tokens : Token.AllAlike L ts us) :
    Agree L (Rest L fun x y => Expr.AllAlike L x.1 y.1 ∧ L.spans x.2 y.2)
      (sequence s close (Parse.expression s .lowest) ts) (sequence t close (Parse.expression t .lowest) us) := by
  have agree := sequence_agree stops (fun ts us less tokens => (below ts us less tokens).1 .lowest) close bound tokens
  exact agree.mono fun _ _ ⟨⟨all, spans⟩, behind⟩ => ⟨⟨.of_forall₂ all, spans⟩, behind⟩
include stops below in
theorem entry_agree {ts us : List Token} (bound : ts.length < n) (tokens : Token.AllAlike L ts us) :
    Agree L (Rest L (Expr.EntryAlike L)) (entry s ts) (entry t us) := by
  rw [entry_eq, entry_eq]
  refine ((below ts us bound tokens).1 .lowest).andThen ?_
  rintro k l ts us read keys tokens
  have shorter := Parse.length_of_plain read
  refine (expect_agree stops .colon tokens).andThen ?_
  rintro c d ts us read _ tokens
  have shorter' := Parse.length_of_plain read
  refine ((below ts us (by omega) tokens).1 .lowest).andThen ?_
  rintro v w ts us _ values tokens
  exact .ok ⟨⟨keys, values⟩, tokens⟩
include stops below in
theorem entries_agree {ts us : List Token} (bound : ts.length < n) (tokens : Token.AllAlike L ts us) :
    Agree L (Rest L fun x y => Expr.EntriesAlike L x.1 y.1 ∧ L.spans x.2 y.2)
      (sequence s .closeList (Parse.entry s) ts) (sequence t .closeList (Parse.entry t) us) := by
  have agree := sequence_agree stops (fun ts us less tokens => entry_agree stops below less tokens) .closeList bound
    tokens
  exact agree.mono fun _ _ ⟨⟨all, spans⟩, behind⟩ => ⟨⟨.of_forall₂ all, spans⟩, behind⟩

include joins stops below

theorem opened_agree {u v : Token} {ts us : List Token} (bound : ts.length < n) (alike : u.Alike L v)
    (tokens : Token.AllAlike L ts us) :
    Agree L (Rest L (Expr.Alike L)) (opened s u ts) (opened t v us) := by
  unfold opened
  simp only [is_alike alike]
  split
  · refine (expect_agree stops .openGroup tokens).andThen ?_
    rintro c d ts us read _ tokens
    have shorter := Parse.length_of_plain read
    have parameters := sequence_agree (n := n) stops
      (fun ts us _ tokens => parameter_agree joins stops tokens) .closeGroup (by omega) tokens
    refine parameters.andThen ?_
    rintro ⟨is, _⟩ ⟨js, _⟩ ts us read ⟨named, _⟩ tokens
    have shorter' := Parse.length_of_plain read
    refine (below ts us (by omega) tokens).2.andThen ?_
    rintro b c ts us _ bodies tokens
    exact .ok ⟨.function named bodies (joins.through alike.span bodies.span), tokens⟩
  split
  · refine ((below ts us bound tokens).1 .lowest).andThen ?_
    rintro d e ts us _ inner tokens
    refine (expect_agree stops .closeGroup tokens).andThen ?_
    rintro a b ts us _ last tokens
    exact .ok ⟨inner.withSpan (joins.through alike.span last.span), tokens⟩
  split
  · cases tokens with
    | nil => exact .error _ stops
    | cons next tokens =>
      have more := List.Forall₂.cons next tokens
      simp only [is_alike next]
      simp only [List.length_cons] at bound
      split
      · refine (entries_agree stops below (by omega) tokens).andThen ?_
        rintro ⟨ds, _⟩ ⟨es, _⟩ ts us _ ⟨entries, spans⟩ tokens
        exact .ok ⟨.table entries (joins.through alike.span spans), tokens⟩
      · refine (elements_agree stops below .closeList (by simpa using bound) more).andThen ?_
        rintro ⟨ds, _⟩ ⟨es, _⟩ ts us _ ⟨elements, spans⟩ tokens
        exact .ok ⟨.list elements (joins.through alike.span spans), tokens⟩
  · rw [alike.kind]
    exact .error _ alike.span
theorem start_agree {ts us : List Token} (bound : ts.length < n + 1) (tokens : Token.AllAlike L ts us) :
    Agree L (Rest L (Expr.Alike L)) (start s ts) (start t us) := by
  cases tokens with
  | nil =>
    rw [start_nil, start_nil]
    exact .error _ stops
  | @cons u v ts us alike tokens =>
    simp only [List.length_cons, Nat.add_lt_add_iff_right] at bound
    rw [start_cons, start_cons, alike.kind, alike.value]
    split
    · split
      · exact .ok ⟨.number _ alike.span, tokens⟩
      · exact .error _ alike.span
    · split
      · exact .ok ⟨.boolean _ alike.span, tokens⟩
      · exact .error _ alike.span
    · exact .ok ⟨.string _ alike.span, tokens⟩
    · exact .ok ⟨.identifier ⟨rfl, joins.names _, alike.span⟩, tokens⟩
    · split
      · exact .error _ alike.span
      · refine ((below ts us bound tokens).1 .leading).andThen ?_
        rintro d e ts us _ operand tokens
        exact .ok ⟨.prefixed _ operand (joins.through alike.span operand.span), tokens⟩
    · exact opened_agree joins stops below bound alike tokens
theorem extend_agree (p : BindingPower) {d e : Expr} (before : d.Alike L e) {ts us : List Token}
    (bound : ts.length < n + 1) (tokens : Token.AllAlike L ts us) :
    Agree L (Rest L (Expr.Alike L)) (extend s p d ts) (extend t p e us) := by
  induction size : ts.length using Nat.strongRecOn generalizing ts us d e with
  | _ m ih =>
    subst size
    cases tokens with
    | nil =>
      rw [extend_nil, extend_nil]
      exact .ok ⟨before, .nil⟩
    | @cons u v ts us alike tokens =>
      have whole := List.Forall₂.cons alike tokens
      simp only [List.length_cons, Nat.add_lt_add_iff_right] at bound ih
      rw [extend_cons, extend_cons, power_alike alike, alike.kind, alike.value, is_alike alike, is_alike alike,
        before.isCallable]
      split
      · exact .ok ⟨before, whole⟩
      split
      · split
        · refine (elements_agree stops below .closeGroup bound tokens).andThen ?_
          rintro ⟨ds, _⟩ ⟨es, _⟩ ts us read ⟨arguments, spans⟩ tokens
          have shorter := Parse.length_of_plain read
          exact ih _ (by omega) (.call before arguments (joins.through before.span spans)) (by omega) tokens rfl
        · exact .ok ⟨before, whole⟩
      split
      · have refused : Agree L (Rest L (Expr.Alike L)) (.error ⟨.assignmentTarget d.render, d.span⟩)
            (.error ⟨.assignmentTarget e.render, e.span⟩) := by
          rw [before.render_eq]
          exact .error _ before.span
        cases before with
        | identifier named =>
          refine ((below _ _ bound tokens).1 .assignment).andThen ?_
          rintro d e ts us read value tokens
          have shorter := Parse.length_of_plain read
          exact ih _ (by omega) (.assignment named value (joins.through named.span value.span)) (by omega) tokens rfl
        | _ => exact refused
      · split
        · exact .error _ alike.span
        · refine ((below _ _ bound tokens).1 _).andThen ?_
          rintro l r ts us read right tokens
          have shorter := Parse.length_of_plain read
          exact ih _ (by omega) (.binary _ before right (joins.through before.span right.span)) (by omega) tokens rfl
theorem expression_agree (p : BindingPower) {ts us : List Token} (bound : ts.length < n + 1)
    (tokens : Token.AllAlike L ts us) : Agree L (Rest L (Expr.Alike L)) (expression s p ts) (expression t p us) := by
  rw [expression_eq, expression_eq]
  refine (start_agree joins stops below bound tokens).andThen ?_
  rintro d e ts us read before tokens
  have shorter := Parse.length_of_plain read
  exact extend_agree joins stops below p before (by omega) tokens

/-! ### Statements -/

theorem bareStatement_agree {ts us : List Token} (bound : ts.length < n + 1) (tokens : Token.AllAlike L ts us) :
    Agree L (Rest L (Statement.Alike L)) (bareStatement s ts) (bareStatement t us) := by
  cases tokens with
  | nil =>
    rw [bareStatement_nil, bareStatement_nil]
    exact .error _ stops
  | @cons u v ts us alike tokens =>
    have whole := List.Forall₂.cons alike tokens
    have smaller : ts.length < n := by simpa using bound
    rw [bareStatement_cons, bareStatement_cons]
    simp only [is_alike alike, alike.value]
    split
    · refine ((below ts us smaller tokens).1 .lowest).andThen ?_
      rintro d e ts us read predicates tokens
      have shorter := Parse.length_of_plain read
      refine (below ts us (by omega) tokens).2.andThen ?_
      rintro b c ts us read' blocks tokens
      have shorter' := Parse.length_of_plain read'
      cases tokens with
      | nil => exact .ok ⟨.branch predicates blocks (joins.through alike.span blocks.span), .nil⟩
      | cons next tokens =>
        have rest := List.Forall₂.cons next tokens
        simp only [List.length_cons] at shorter'
        simp only [is_alike next]
        split
        · refine (below _ _ (by omega) tokens).2.andThen ?_
          rintro a z ts us _ others tokens
          exact .ok ⟨.branchElse predicates blocks others (joins.through alike.span others.span), tokens⟩
        · exact .ok ⟨.branch predicates blocks (joins.through alike.span blocks.span), rest⟩
    split
    · refine ((below ts us smaller tokens).1 .lowest).andThen ?_
      rintro d e ts us _ values tokens
      exact .ok ⟨.giveBack values (joins.through alike.span values.span), tokens⟩
    split
    · exact .error _ alike.span
    · refine (expression_agree joins stops below .lowest bound whole).andThen ?_
      rintro d e ts us _ expressions tokens
      exact .ok ⟨.expression expressions, tokens⟩
omit joins stops below in
theorem skipSemicolon_alike {ts us : List Token} (tokens : Token.AllAlike L ts us) :
    Token.AllAlike L (Parse.skipSemicolon ts) (Parse.skipSemicolon us) := by
  cases tokens with
  | nil => exact .nil
  | cons alike tokens =>
    simp only [Parse.skipSemicolon, is_alike alike]
    split
    · exact tokens
    · exact .cons alike tokens
theorem statement_agree {ts us : List Token} (bound : ts.length < n + 1) (tokens : Token.AllAlike L ts us) :
    Agree L (Rest L (Statement.Alike L)) (statement s ts) (statement t us) := by
  rw [statement_eq, statement_eq]
  refine (bareStatement_agree joins stops below bound tokens).andThen ?_
  rintro a b ts us _ statements tokens
  exact .ok ⟨statements, skipSemicolon_alike tokens⟩
theorem blockTail_agree {ts us : List Token} (bound : ts.length < n + 1) (tokens : Token.AllAlike L ts us) :
    Agree L (Rest L fun x y => Statement.AllAlike L x.1 y.1 ∧ L.spans x.2 y.2) (blockTail s ts) (blockTail t us) := by
  induction size : ts.length using Nat.strongRecOn generalizing ts us with
  | _ m ih =>
    subst size
    cases tokens with
    | nil =>
      rw [blockTail_nil, blockTail_nil]
      exact ofDelimiter_agree (finish_alike stops) _ .closeBlock
    | cons alike tokens =>
      have whole := List.Forall₂.cons alike tokens
      rw [blockTail_cons, blockTail_cons, is_alike alike, alike.kind]
      split
      · exact .ok ⟨⟨.nil, alike.span⟩, tokens⟩
      split
      · exact ofDelimiter_agree alike _ .closeBlock
      · refine (statement_agree joins stops below bound whole).andThen ?_
        rintro a b ts us read first tokens
        have shorter := Parse.length_of_plain read
        refine (ih _ shorter (by omega) tokens rfl).andThen ?_
        rintro ⟨as, _⟩ ⟨bs, _⟩ ts us _ ⟨all, spans⟩ tokens
        exact .ok ⟨⟨.cons first all, spans⟩, tokens⟩
theorem block_agree {ts us : List Token} (bound : ts.length < n + 1) (tokens : Token.AllAlike L ts us) :
    Agree L (Rest L (Block.Alike L)) (block s ts) (block t us) := by
  rw [block_eq, block_eq]
  refine (expect_agree stops .openBlock tokens).andThen ?_
  rintro a b ts us read first tokens
  have shorter := Parse.length_of_plain read
  refine (blockTail_agree joins stops below (by omega) tokens).andThen ?_
  rintro ⟨as, _⟩ ⟨bs, _⟩ ts us _ ⟨statements, spans⟩ tokens
  exact .ok ⟨.mk statements (joins.through first.span spans), tokens⟩

end

/-! ### All tokens -/

include joins stops

theorem alikeBelow (n : Nat) : AlikeBelow L s t n := by
  induction n with
  | zero => exact fun _ _ none => absurd none (Nat.not_lt_zero _)
  | succ n below =>
    exact fun ts us bound tokens =>
      ⟨fun p => expression_agree joins stops below p bound tokens, block_agree joins stops below bound tokens⟩
/-- The statements of tokens that are alike, and the spans of what ends them. -/
theorem statements_agree {ts us : List Token} (tokens : Token.AllAlike L ts us) :
    Agree L (fun x y => Statement.AllAlike L x.1 y.1 ∧ L.spans x.2 y.2)
      (Parse.statements s ts) (Parse.statements t us) := by
  induction size : ts.length using Nat.strongRecOn generalizing ts us with
  | _ m ih =>
    subst size
    cases tokens with
    | nil =>
      rw [statements_nil, statements_nil]
      exact .ok ⟨.nil, stops⟩
    | cons alike tokens =>
      have whole := List.Forall₂.cons alike tokens
      rw [statements_cons, statements_cons, alike.kind]
      split
      · exact .ok ⟨.nil, alike.span⟩
      · refine (statement_agree joins stops (alikeBelow joins stops _) (Nat.lt_succ_self _) whole).andThen ?_
        rintro a b ts us read first tokens
        refine (ih _ (Parse.length_of_plain read) tokens rfl).bind ?_
        rintro ⟨as, _⟩ ⟨bs, _⟩ _ ⟨all, spans⟩
        exact .ok ⟨.cons first all, spans⟩

end Read

/-- The last of statements that are alike. -/
theorem Statement.AllAlike.getLast {L : Likeness} {a b : Statement} {as bs : List Statement} (first : a.Alike L b)
    (rest : Statement.AllAlike L as bs) :
    ∃ c d, (a :: as).getLast? = some c ∧ (b :: bs).getLast? = some d ∧ c.Alike L d := by
  match rest with
  | .nil => exact ⟨a, b, rfl, rfl, first⟩
  | .cons next rest =>
    obtain ⟨c, d, left, right, alike⟩ := Statement.AllAlike.getLast next rest
    exact ⟨c, d, by rw [List.getLast?_cons_cons, left], by rw [List.getLast?_cons_cons, right], alike⟩

namespace Program
variable {L : Likeness} (joins : L.Joins)
include joins

theorem spanOf_alike {as bs : List Statement} (alike : Statement.AllAlike L as bs) {s t : Span} (stops : L.spans s t) :
    L.spans (spanOf as s) (spanOf bs t) := by
  cases alike with
  | nil => exact stops
  | cons first rest =>
    obtain ⟨c, d, left, right, last⟩ := Statement.AllAlike.getLast first rest
    simp only [spanOf, List.head?_cons, left, right]
    exact joins.through first.span last.span
/-- Tokens that are alike make programs that are alike, or are refused for one cause. -/
theorem ofTokens_agree {ts us : List Token} (tokens : Token.AllAlike L ts us) {s t : Span} (stops : L.spans s t) :
    Parse.Agree L (Program.Alike L) (ofTokens ts s) (ofTokens us t) := by
  refine (Read.statements_agree joins stops tokens).bind ?_
  rintro ⟨as, _⟩ ⟨bs, _⟩ _ ⟨statements, spans⟩
  exact .ok ⟨statements, spanOf_alike joins statements spans⟩

end Program
end KoreanScript
