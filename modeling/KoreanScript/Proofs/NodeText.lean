import Mathlib
import KoreanScript.Proofs.Nodes
import KoreanScript.Proofs.Slices

/-!
The text of a node. Every expression and every statement of a program is derived from
tokens that stand side by side, and its span reaches from the first of them to the
last. So what its span covers of a text is on its own a program of that node alone.
-/
namespace KoreanScript

theorem Expr.span_withSpan (s : Span) (e : Expr) : (e.withSpan s).span = s := by
  cases e <;> rfl
theorem Expr.lists_withSpan (s : Span) (e : Expr) : (e.withSpan s).lists = e.lists := by
  cases e <;> simp only [withSpan, lists]

theorem Expr.withSpan_span (e : Expr) : e.withSpan e.span = e := by
  cases e <;> rfl

namespace Grammar

/-! ### From the first token to the last -/

/-- Tokens the first of which begins at `p`. -/
def BeginAt (p : Position) (ts : List Token) : Prop := ∃ t, ts.head? = some t ∧ t.span.first = p
/-- Tokens the last of which ends at `p`. -/
def EndAt (p : Position) (ts : List Token) : Prop := ∃ t, ts.getLast? = some t ∧ t.span.last = p
/-- A span that reaches from the first of some tokens to the last. -/
structure Spans (s : Span) (ts : List Token) : Prop where
  first : BeginAt s.first ts
  last : EndAt s.last ts

theorem Spans.token (t : Token) : Spans t.span [t] := ⟨⟨t, rfl, rfl⟩, t, rfl, rfl⟩
theorem EndAt.append {p : Position} {us : List Token} (ends : EndAt p us) (ts : List Token) : EndAt p (ts ++ us) := by
  obtain ⟨t, last, place⟩ := ends
  refine ⟨t, ?_, place⟩
  rw [List.getLast?_append, last, Option.some_or]
theorem Spans.through {s r : Span} {ts us : List Token} (left : Spans s ts) (right : EndAt r.last us)
    (between : List Token) : Spans (s.through r) (ts ++ (between ++ us)) := by
  obtain ⟨t, first, place⟩ := left.first
  refine ⟨⟨t, ?_, place⟩, (right.append between).append ts⟩
  rw [List.head?_append, first, Option.some_or]

theorem Target.spans {ts : List Token} {i : Identifier} (target : Target ts i) : Spans i.span ts := by
  cases target with
  | name _ => exact .token _
  | @group t u ts i _ _ _ => exact (Spans.token t).through (Spans.token u).last ts
/-- Elements end with the mark that closes them, and their span is that of the mark. -/
theorem Items.closes : ∀ {close : Mark} {ts : List Token} {es : List Expr} {s : Span}, Items close ts es s →
    ∃ us t, ts = us ++ [t] ∧ t.is close ∧ t.span = s
  | _, _, _, _, .last _ closes => ⟨_, _, rfl, closes, rfl⟩
  | _, _, _, _, @Items.more _ ts _ t _ _ _ _ _ _ rest => by
    obtain ⟨us, u, rfl, closes, span⟩ := rest.closes
    exact ⟨ts ++ t :: us, u, by simp, closes, span⟩
theorem Elements.closes {close : Mark} {ts : List Token} {es : List Expr} {s : Span} (elements : Elements close ts es s) :
    ∃ us t, ts = us ++ [t] ∧ t.is close ∧ t.span = s := by
  cases elements with
  | none closes => exact ⟨[], _, rfl, closes, rfl⟩
  | some items => exact items.closes
theorem Pairs.closes : ∀ {ts : List Token} {es : List (Expr × Expr)} {s : Span}, Pairs ts es s →
    ∃ us t, ts = us ++ [t] ∧ t.is .closeList ∧ t.span = s
  | _, _, _, @Pairs.last ts us t _ _ _ _ _ _ _ _ closes => ⟨ts ++ t :: us, _, by simp, closes, rfl⟩
  | _, _, _, @Pairs.more ts us _ t u _ _ _ _ _ _ _ _ _ _ rest => by
    obtain ⟨vs, w, rfl, closes, span⟩ := rest.closes
    exact ⟨ts ++ t :: (us ++ u :: vs), w, by simp, closes, span⟩
theorem Entries.closes {ts : List Token} {es : List (Expr × Expr)} {s : Span} (entries : Entries ts es s) :
    ∃ us t, ts = us ++ [t] ∧ t.is .closeList ∧ t.span = s := by
  cases entries with
  | none closes => exact ⟨[], _, rfl, closes, rfl⟩
  | some pairs => exact pairs.closes
theorem Elements.endAt {close : Mark} {ts : List Token} {es : List Expr} {s : Span}
    (elements : Elements close ts es s) : EndAt s.last ts := by
  obtain ⟨us, t, rfl, _, rfl⟩ := elements.closes
  exact (Spans.token t).last.append us
theorem Entries.endAt {ts : List Token} {es : List (Expr × Expr)} {s : Span} (entries : Entries ts es s) :
    EndAt s.last ts := by
  obtain ⟨us, t, rfl, _, rfl⟩ := entries.closes
  exact (Spans.token t).last.append us
theorem OfBlock.spans {ts : List Token} {b : Block} (block : OfBlock ts b) : Spans b.span ts := by
  cases block with
  | @mk ts t u ss _ _ _ => exact (Spans.token t).through (Spans.token u).last ts
theorem Derives.spans : ∀ {l : Level} {ts : List Token} {e r : Expr}, Derives l ts e r → Spans e.span ts
  | _, _, _, _, .assign (t := t) target _ value => target.spans.through value.spans.last [t]
  | _, _, _, _, .compare (t := t) left _ _ right | _, _, _, _, .add (t := t) left _ _ right
  | _, _, _, _, .multiply (t := t) left _ _ right => left.spans.through right.spans.last [t]
  | _, _, _, _, .ofComparison inner | _, _, _, _, .ofSum inner | _, _, _, _, .ofProduct inner
  | _, _, _, _, .ofPrefixed inner | _, _, _, _, .ofCall inner | _, _, _, _, .ofPrimary inner => inner.spans
  | _, _, _, _, .lead (t := t) _ operand => (Spans.token t).through operand.spans.last []
  | _, _, _, _, .call (t := t) callee _ _ arguments => callee.spans.through arguments.endAt [t]
  | _, _, _, _, .number _ _ | _, _, _, _, .boolean _ _ | _, _, _, _, .string _
  | _, _, _, _, .identifier _ => .token _
  | _, _, _, _, .group (t := t) (u := u) _ _ _ => by
    rw [Expr.span_withSpan]
    exact (Spans.token t).through (Spans.token u).last _
  | _, _, _, _, @Derives.function ts _ t u _ _ _ _ _ body => (Spans.token t).through body.spans.last (u :: ts)
  | _, _, _, _, .list (t := t) _ elements => (Spans.token t).through elements.endAt []
  | _, _, _, _, .table (t := t) (u := u) _ _ entries => (Spans.token t).through entries.endAt [u]
theorem Bare.spans {ts : List Token} {a : Statement} {o : Option Expr} (bare : Bare ts a o) : Spans a.span ts := by
  cases bare with
  | @branch ts us t p r b _ _ block => exact (Spans.token t).through block.spans.last ts
  | @branchElse ts us vs t u p r b c _ _ _ _ other =>
    exact (Spans.token t).through ((other.spans.last.append [u]).append us) ts
  | @giveBack ts t e r _ value => exact (Spans.token t).through value.spans.last []
  | expression value => exact value.spans

/-! ### Side by side -/

/-- Expressions and lists of statements that are derived from tokens side by side among `ts`. -/
structure Within (ts : List Token) (es : List Expr) (lists : List (List Statement)) : Prop where
  expressions : ∀ e ∈ es, ∃ us r, us <:+: ts ∧ Derives .expression us e r
  statements : ∀ as ∈ lists, ∀ a ∈ as, ∃ us o, us <:+: ts ∧ Bare us a o

theorem Within.nil (ts : List Token) : Within ts [] [] := ⟨by simp, by simp⟩
theorem Within.mono {ts us : List Token} {es : List Expr} {lists : List (List Statement)} (within : Within us es lists)
    (part : us <:+: ts) : Within ts es lists := by
  constructor
  · intro e member
    obtain ⟨vs, r, inside, derived⟩ := within.expressions e member
    exact ⟨vs, r, inside.trans part, derived⟩
  · intro as list a member
    obtain ⟨vs, o, inside, derived⟩ := within.statements as list a member
    exact ⟨vs, o, inside.trans part, derived⟩
theorem Within.append {ts : List Token} {ds es : List Expr} {lists lists' : List (List Statement)}
    (first : Within ts ds lists) (second : Within ts es lists') : Within ts (ds ++ es) (lists ++ lists') :=
  ⟨List.forall_mem_append.mpr ⟨first.expressions, second.expressions⟩,
    List.forall_mem_append.mpr ⟨first.statements, second.statements⟩⟩

section
variable {us : List Token} {es : List Expr} {lists : List (List Statement)} (within : Within us es lists)
include within

theorem Within.front (vs : List Token) : Within (us ++ vs) es lists :=
  within.mono (List.prefix_append us vs).isInfix
theorem Within.back (vs : List Token) : Within (vs ++ us) es lists :=
  within.mono (List.suffix_append vs us).isInfix
theorem Within.behind (t : Token) : Within (t :: us) es lists :=
  within.mono (List.suffix_cons t us).isInfix

end

/-- Each of some statements is derived from tokens side by side, without its semicolon. -/
theorem Statements.bare {ts : List Token} {as : List Statement} (statements : Statements ts as) :
    ∀ a ∈ as, ∃ us o, us <:+: ts ∧ Bare us a o := by
  match statements with
  | .nil => simp
  | .cons first rest _ =>
    refine List.forall_mem_cons.mpr ⟨?_, ?_⟩
    · cases first with
      | closed bare _ =>
        rw [List.append_assoc]
        exact ⟨_, _, (List.prefix_append _ _).isInfix, bare⟩
      | bare bare => exact ⟨_, _, (List.prefix_append _ _).isInfix, bare⟩
    · intro a member
      obtain ⟨us, o, part, bare⟩ := Statements.bare rest a member
      exact ⟨us, o, part.trans (List.suffix_append _ _).isInfix, bare⟩
theorem Within.list {ts : List Token} {es : List Expr} {lists : List (List Statement)} (within : Within ts es lists)
    {as : List Statement} (bare : ∀ a ∈ as, ∃ us o, us <:+: ts ∧ Bare us a o) : Within ts es (as :: lists) :=
  ⟨within.expressions, List.forall_mem_cons.mpr ⟨bare, within.statements⟩⟩
/-- What is derived of tokens, with what is within it. -/
theorem Within.whole {l : Level} {ts : List Token} {e r : Expr} (derived : Derives l ts e r)
    (inner : Within ts e.nodes.tail e.lists) : Within ts e.nodes e.lists := by
  constructor
  · intro n member
    rw [← Expr.withSpan_span e, Expr.nodes_withSpan, Expr.withSpan_span] at member
    rcases List.mem_cons.mp member with rfl | later
    · exact ⟨ts, r, List.infix_rfl, derived.weaken (Nat.zero_le _)⟩
    · exact inner.expressions n later
  · exact inner.statements

mutual
theorem Derives.within : ∀ {l : Level} {ts : List Token} {e r : Expr}, Derives l ts e r →
    Within ts e.nodes.tail e.lists
  | _, _, _, _, .ofComparison inner | _, _, _, _, .ofSum inner | _, _, _, _, .ofProduct inner
  | _, _, _, _, .ofPrefixed inner | _, _, _, _, .ofCall inner | _, _, _, _, .ofPrimary inner => inner.within
  | _, _, _, _, .assign _ _ value => by
    rw [Expr.nodes, List.tail_cons, Expr.lists]
    exact ((Within.whole value value.within).behind _).back _
  | _, _, _, _, .compare left _ _ right | _, _, _, _, .add left _ _ right | _, _, _, _, .multiply left _ _ right => by
    rw [Expr.nodes, List.tail_cons, Expr.lists]
    exact ((Within.whole left left.within).front _).append (((Within.whole right right.within).behind _).back _)
  | _, _, _, _, .lead _ operand => by
    rw [Expr.nodes, List.tail_cons, Expr.lists]
    exact (Within.whole operand operand.within).behind _
  | _, _, _, _, .call callee _ _ arguments => by
    rw [Expr.nodes, List.tail_cons, Expr.lists]
    exact ((Within.whole callee callee.within).front _).append ((arguments.within.behind _).back _)
  | _, _, _, _, .number _ _ | _, _, _, _, .boolean _ _ | _, _, _, _, .string _ | _, _, _, _, .identifier _ => by
    rw [Expr.nodes, List.tail_cons, Expr.lists]
    exact .nil _
  | _, _, _, _, .group _ inner _ => by
    rw [Expr.nodes_withSpan, List.tail_cons, Expr.lists_withSpan]
    exact (inner.within.front _).behind _
  | _, _, _, _, .function _ _ _ body => by
    rw [Expr.nodes, List.tail_cons, Expr.lists]
    exact ((body.within.back _).behind _).behind _
  | _, _, _, _, .list _ elements => by
    rw [Expr.nodes, List.tail_cons, Expr.lists]
    exact elements.within.behind _
  | _, _, _, _, .table _ _ entries => by
    rw [Expr.nodes, List.tail_cons, Expr.lists]
    exact (entries.within.behind _).behind _
theorem Elements.within : ∀ {close : Mark} {ts : List Token} {es : List Expr} {s : Span},
    Elements close ts es s → Within ts (Expr.nodesAll es) (Expr.listsAll es)
  | _, _, _, _, .none _ => by
    rw [Expr.nodesAll, Expr.listsAll]
    exact .nil _
  | _, _, _, _, .some items => items.within
theorem Items.within : ∀ {close : Mark} {ts : List Token} {es : List Expr} {s : Span},
    Items close ts es s → Within ts (Expr.nodesAll es) (Expr.listsAll es)
  | _, _, _, _, .last first _ => by
    simp only [Expr.nodesAll, Expr.listsAll, List.append_nil]
    exact (Within.whole first first.within).front _
  | _, _, _, _, .more first _ rest => by
    rw [Expr.nodesAll, Expr.listsAll]
    exact ((Within.whole first first.within).front _).append ((rest.within.behind _).back _)
theorem Entries.within : ∀ {ts : List Token} {es : List (Expr × Expr)} {s : Span},
    Entries ts es s → Within ts (Expr.nodesEntries es) (Expr.listsEntries es)
  | _, _, _, .none _ => by
    rw [Expr.nodesEntries, Expr.listsEntries]
    exact .nil _
  | _, _, _, .some pairs => pairs.within
theorem Pairs.within : ∀ {ts : List Token} {es : List (Expr × Expr)} {s : Span},
    Pairs ts es s → Within ts (Expr.nodesEntries es) (Expr.listsEntries es)
  | _, _, _, .last key _ value _ => by
    simp only [Expr.nodesEntries, Expr.listsEntries, List.append_nil]
    exact ((Within.whole key key.within).front _).append
      ((((Within.whole value value.within).front _).behind _).back _)
  | _, _, _, .more key _ value _ rest => by
    rw [Expr.nodesEntries, Expr.listsEntries]
    exact (((Within.whole key key.within).front _).append
      ((((Within.whole value value.within).front _).behind _).back _)).append
        ((((rest.within.behind _).back _).behind _).back _)
theorem OfBlock.within : ∀ {ts : List Token} {b : Block}, OfBlock ts b → Within ts b.nodes b.lists
  | _, _, .mk _ statements _ => by
    rw [Block.nodes, Block.lists]
    exact ((statements.within.list statements.bare).front _).behind _
theorem Bare.within : ∀ {ts : List Token} {a : Statement} {o : Option Expr}, Bare ts a o →
    Within ts a.nodes a.lists
  | _, _, _, .branch _ predicate block => by
    rw [Statement.nodes, Statement.lists]
    exact (((Within.whole predicate predicate.within).front _).append (block.within.back _)).behind _
  | _, _, _, .branchElse _ predicate block _ other => by
    rw [Statement.nodes, Statement.lists]
    exact ((((Within.whole predicate predicate.within).front _).append ((block.within.front _).back _)).append
      (((other.within.behind _).back _).back _)).behind _
  | _, _, _, .giveBack _ value => by
    rw [Statement.nodes, Statement.lists]
    exact (Within.whole value value.within).behind _
  | _, _, _, .expression value => by
    rw [Statement.nodes, Statement.lists]
    exact Within.whole value value.within
theorem Closing.within : ∀ {ts : List Token} {a : Statement} {o : Option Expr}, Closing ts a o →
    Within ts a.nodes a.lists
  | _, _, _, .closed bare _ => bare.within.front _
  | _, _, _, .bare bare => bare.within
theorem Statements.within : ∀ {ts : List Token} {as : List Statement}, Statements ts as →
    Within ts (Statement.nodesAll as) (Statement.listsAll as)
  | _, _, .nil => by
    rw [Statement.nodesAll, Statement.listsAll]
    exact .nil _
  | _, _, .cons first rest _ => by
    rw [Statement.nodesAll, Statement.listsAll]
    exact (first.within.front _).append (rest.within.back _)
end

end Grammar

/-! ### Alone -/

namespace Program
open Grammar

/-- What the span of a statement covers of a text is on its own a program of that statement. -/
theorem ofSource_textIn {source : String} {ts : List Token} (part : ts <:+: (Token.scan source).tokens)
    {a : Statement} {o : Option Expr} (bare : Bare ts a o) :
    ∃ q b, ofSource (a.span.textIn source) = .ok q ∧ q.statements = [b] ∧ a.Alike (.moved a.span.first) b := by
  obtain ⟨before, behind, tokens⟩ := part
  obtain ⟨⟨t, first, begins⟩, u, last, ends⟩ := bare.spans
  have span : t.span.through u.span = a.span := by rw [Span.through, begins, ends]
  have unmarked : ¬ t.is .tableMarker := by
    obtain ⟨t', us, rfl, starts⟩ := bare.starts
    cases first
    simp [starts.is_eq_false (m := .tableMarker) (by decide) (by decide)]
  have alike := scan_textIn tokens.symm first last unmarked
  rw [span, begins] at alike
  have endless : ∀ t ∈ ts, t.kind ≠ .finish := by
    intro t inside
    apply kind_ne_finish_of_scan source
    rw [← tokens]
    simp [inside]
  -- The end of the part stands wherever the end of its own text is moved to.
  obtain ⟨stop, stops⟩ : ∃ stop, (Likeness.moved a.span.first).spans stop
      (Token.scan (a.span.textIn source)).finish := ⟨_, rfl⟩
  have alone : ofTokens ts stop = .ok ⟨[a], spanOf [a] stop⟩ := by
    refine (ofTokens_iff_derives endless _).mpr ⟨?_, rfl⟩
    have single := Statements.cons (.bare bare) .nil (by simp)
    rwa [List.append_nil] at single
  have agree := ofTokens_agree (Likeness.moved_joins _) alike stops
  rw [alone] at agree
  generalize read : ofTokens (Token.scan (a.span.textIn source)).tokens _ = answer at agree
  obtain ⟨q, rfl, related⟩ : ∃ q, answer = .ok q ∧ Program.Alike (.moved a.span.first) ⟨[a], spanOf [a] stop⟩ q := by
    cases agree with
    | ok related => exact ⟨_, rfl, related⟩
  obtain ⟨statements, _⟩ := related
  obtain ⟨b, only, like⟩ : ∃ b, q.statements = [b] ∧ a.Alike (.moved a.span.first) b := by
    generalize q.statements = bs at statements
    cases statements with
    | cons like rest =>
      cases rest
      exact ⟨_, rfl, like⟩
  exact ⟨q, b, read, only, like⟩
/-- What the span of a node covers of a text is on its own a program of that node alone: of the
    statement itself, or of the expression as a statement. All spans of the node count from its own
    first character there. -/
theorem ofSource_node {source : String} {p : Program} (read : ofSource source = .ok p) :
    (∀ e ∈ p.nodes, ∃ q d, ofSource (e.span.textIn source) = .ok q ∧ q.statements = [.expression d] ∧
      e.Alike (.moved e.span.first) d) ∧
    ∀ as ∈ p.lists, ∀ a ∈ as, ∃ q b, ofSource (a.span.textIn source) = .ok q ∧ q.statements = [b] ∧
      a.Alike (.moved a.span.first) b := by
  have derived := ((ofTokens_iff_derives (kind_ne_finish_of_scan source) p).mp read).1
  have within : Within (Token.scan source).tokens p.nodes p.lists := derived.within.list derived.bare
  constructor
  · intro e member
    obtain ⟨ts, r, part, derived⟩ := within.expressions e member
    obtain ⟨q, b, read, only, alike⟩ := ofSource_textIn part (.expression derived)
    cases alike with
    | expression alike => exact ⟨q, _, read, only, alike⟩
  · intro as list a member
    obtain ⟨ts, o, part, bare⟩ := within.statements as list a member
    exact ofSource_textIn part bare

set_option maxRecDepth 100000 in
/-- An expression in parentheses that goes over the end of a line. -/
theorem ofSource_node_group :
    ∃ p e q d, ofSource "x = (y +\n z)" = .ok p ∧ e ∈ p.nodes ∧ e.span.textIn "x = (y +\n z)" = "(y +\n z)" ∧
      ofSource "(y +\n z)" = .ok q ∧ q.statements = [.expression d] ∧ e.Alike (.moved ⟨0, 4⟩) d := by
  let sum := Expr.binary .plus (.identifier ⟨"y", ⟨⟨0, 5⟩, ⟨0, 5⟩⟩⟩) (.identifier ⟨"z", ⟨⟨1, 1⟩, ⟨1, 1⟩⟩⟩)
    ⟨⟨0, 4⟩, ⟨1, 2⟩⟩
  have read : ofSource "x = (y +\n z)" = .ok
      ⟨[.expression (.assignment ⟨"x", ⟨⟨0, 0⟩, ⟨0, 0⟩⟩⟩ sum ⟨⟨0, 0⟩, ⟨1, 2⟩⟩)], ⟨⟨0, 0⟩, ⟨1, 2⟩⟩⟩ := by cbv
  have text : sum.span.textIn "x = (y +\n z)" = "(y +\n z)" := by cbv
  have member : sum ∈ nodes ⟨[.expression (.assignment ⟨"x", ⟨⟨0, 0⟩, ⟨0, 0⟩⟩⟩ sum ⟨⟨0, 0⟩, ⟨1, 2⟩⟩)], ⟨⟨0, 0⟩, ⟨1, 2⟩⟩⟩ := by
    simp [nodes, Statement.nodesAll, Statement.nodes, Expr.nodes, sum]
  obtain ⟨q, d, alone, only, alike⟩ := (ofSource_node read).1 sum member
  rw [text] at alone
  exact ⟨_, sum, q, d, read, member, text, alone, only, alike⟩

end Program
end KoreanScript
