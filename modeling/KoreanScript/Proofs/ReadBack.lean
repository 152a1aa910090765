import Mathlib
import KoreanScript.Proofs.Canonical
import KoreanScript.Proofs.GrammarSound
import KoreanScript.Proofs.Likeness

/-!
Canonical texts read back. Tokens with the marks of a tree derive the tree, up to
spans: parentheses around every operator leave one way to group, and what closes
a statement is that nothing behind it goes on with it. That fails for a callable
expression in front of a parenthesis, which a program must not have.
-/
namespace KoreanScript
open Grammar
open Likeness (upToSpans)

/-- Whether the canonical text of the expression begins with a parenthesis. -/
def Expr.isOperation : Expr → Bool
  | .prefixed _ _ _ | .binary _ _ _ _ | .assignment _ _ _ => true
  | _ => false
/-- Whether a parenthesis behind the statement would go on with it. -/
def Statement.endsCallable : Statement → Bool
  | .giveBack e _ | .expression e => e.isCallable
  | .branch _ _ _ _ => false
/-- Whether the canonical text of the statement begins with a parenthesis. -/
def Statement.startsOperation : Statement → Bool
  | .expression e => e.isOperation
  | .branch _ _ _ _ | .giveBack _ _ => false
/-- No statement is followed by one that would go on with it. -/
def Statement.Apart (as : List Statement) : Prop :=
  as.IsChain fun a b => ¬ (a.endsCallable ∧ b.startsOperation)

/-! ### The front of a text -/

theorem Expr.not_operation_of_callable {e : Expr} (callable : e.isCallable) : e.isOperation = false := by
  cases e with
  | identifier _ | function _ _ _ | call _ _ _ => rfl
  | _ => cases callable
/-- No expression begins with an operator, and only operations with a parenthesis. -/
theorem Expr.front : ∀ e : Expr, (∀ n ∈ e.nodes, n.Lawful) →
    ∃ m ms, e.marks = m :: ms ∧ m.kind ≠ .operator ∧ (m = .openGroup → e.isOperation)
  | .identifier _, _ | .number _ _, _ | .boolean _ _, _ | .string _ _, _ | .function _ _ _, _ | .list _ _, _
  | .table _ _, _ => by
    rw [Expr.marks]
    exact ⟨_, _, rfl, by rintro ⟨⟩, by rintro ⟨⟩⟩
  | .prefixed _ _ _, _ | .binary _ _ _ _, _ | .assignment _ _ _, _ => by
    rw [Expr.marks]
    exact ⟨_, _, rfl, by decide, fun _ => rfl⟩
  | .call e es _, lawful => by
    rw [Expr.nodes, List.forall_mem_cons, List.forall_mem_append] at lawful
    obtain ⟨m, ms, split, kind, group⟩ := Expr.front e lawful.2.1
    refine ⟨m, _, by rw [Expr.marks, split]; rfl, kind, fun same => ?_⟩
    exact absurd (group same) (by simp [Expr.not_operation_of_callable lawful.1])
theorem Statement.front (a : Statement) (lawful : ∀ n ∈ a.nodes, n.Lawful) :
    ∃ m ms, a.marks = m :: ms ∧ m.kind ≠ .operator ∧ (m = .openGroup → a.startsOperation) := by
  cases a with
  | branch e b c s =>
    cases c with
    | none | some _ => exact ⟨_, _, by rw [Statement.marks], by rintro ⟨⟩, by rintro ⟨⟩⟩
  | giveBack e s => exact ⟨_, _, by rw [Statement.marks], by rintro ⟨⟩, by rintro ⟨⟩⟩
  | expression e => exact e.front lawful

/-! ### Tokens with given marks -/

theorem Token.of_map_mark_cons {ts : List Token} {m : Mark} {ms : List Mark}
    (marks : ts.map Token.mark = m :: ms) : ∃ t us, ts = t :: us ∧ t.is m ∧ us.map Token.mark = ms := by
  obtain ⟨t, us, split, first, rest⟩ := List.map_eq_cons_iff.mp marks
  exact ⟨t, us, split, Token.is_iff_mark.mpr first, rest⟩
theorem Token.of_map_mark_singleton {ts : List Token} {m : Mark} (marks : ts.map Token.mark = [m]) :
    ∃ t, ts = [t] ∧ t.is m := by
  obtain ⟨t, us, rfl, found, rest⟩ := Token.of_map_mark_cons marks
  rw [List.map_eq_nil_iff.mp rest]
  exact ⟨t, rfl, found⟩

namespace Grammar

theorem Derives.grouped {ts : List Token} {t u : Token} {d e r : Expr} (opens : t.is .openGroup)
    (inner : Derives .expression ts d r) (closes : u.is .closeGroup) (alike : d.Alike upToSpans e) :
    ∃ c, Derives .call (t :: (ts ++ [u])) c c ∧ c.Alike upToSpans e := by
  have same : e.withSpan e.span = e := by cases e <;> rfl
  have outer := alike.withSpan (s := t.span.through u.span) (t := e.span) trivial
  rw [same] at outer
  exact ⟨_, .ofPrimary (.group opens inner closes), outer⟩
/-- An operator between two operands, whatever its level. -/
theorem Derives.operation {ts us : List Token} {t : Token} {op : InfixOperator} {d e q r : Expr}
    (left : Derives .call ts d q) (found : t.is (.ofInfix op)) (right : Derives .call us e r) :
    Derives .expression (ts ++ t :: us) (.binary op d e (d.span.through e.span)) r := by
  rcases operator_cases op with member | member | member
  · exact (Derives.compare (left.weaken (by decide)) member found (right.weaken (by decide))).weaken (by decide)
  · exact (Derives.add (left.weaken (by decide)) member found (right.weaken (by decide))).weaken (by decide)
  · exact (Derives.multiply (left.weaken (by decide)) member found (right.weaken (by decide))).weaken (by decide)
theorem Names.of_marks {close : Mark} : ∀ {is : List Identifier} {ts : List Token}, is ≠ [] →
    ts.map Token.mark = Mark.commas (is.map fun i => [i.mark]) ++ [close] →
    ∃ js s, Names close ts js s ∧ List.Forall₂ upToSpans.Named js is
  | [], _, nonempty, _ => absurd rfl nonempty
  | [i], ts, _, marks => by
    obtain ⟨t, us, rfl, first, rest⟩ := Token.of_map_mark_cons marks
    obtain ⟨u, rfl, closed⟩ := Token.of_map_mark_singleton rest
    obtain ⟨kind, value⟩ := Token.is_iff.mp first
    exact ⟨_, _, .last kind closed, .cons ⟨value, trivial, trivial⟩ .nil⟩
  | i :: j :: is, ts, _, marks => by
    obtain ⟨t, us, rfl, first, rest⟩ := Token.of_map_mark_cons marks
    obtain ⟨u, vs, rfl, comma, rest⟩ := Token.of_map_mark_cons rest
    obtain ⟨kind, value⟩ := Token.is_iff.mp first
    have more : j :: is ≠ [] := by simp
    obtain ⟨js, s, names, named⟩ := Names.of_marks more rest
    exact ⟨_, _, .more kind comma names, .cons ⟨value, trivial, trivial⟩ named⟩
theorem Parameters.of_marks {is : List Identifier} {ts : List Token}
    (marks : ts.map Token.mark = Mark.commas (is.map fun i => [i.mark]) ++ [.closeGroup]) :
    ∃ js, Parameters ts js ∧ List.Forall₂ upToSpans.Named js is := by
  cases is with
  | nil =>
    obtain ⟨t, rfl, closed⟩ := Token.of_map_mark_singleton marks
    exact ⟨[], .none closed, .nil⟩
  | cons i is =>
    obtain ⟨js, s, names, named⟩ := Names.of_marks (by simp) marks
    exact ⟨js, .some names, named⟩

theorem Elements.of_marks {es : List Expr} {close : Mark} {ts : List Token}
    (marks : ts.map Token.mark = Mark.commas (Expr.marksAll es) ++ [close])
    (items : es ≠ [] → ∃ ds s, Items close ts ds s ∧ Expr.AllAlike upToSpans ds es) :
    ∃ ds s, Elements close ts ds s ∧ Expr.AllAlike upToSpans ds es := by
  cases es with
  | nil =>
    obtain ⟨t, rfl, closed⟩ := Token.of_map_mark_singleton marks
    exact ⟨_, _, .none closed, .nil⟩
  | cons e es =>
    obtain ⟨ds, s, items, alikes⟩ := items (by simp)
    exact ⟨ds, s, .some items, alikes⟩
theorem Entries.of_marks {es : List (Expr × Expr)} {ts : List Token}
    (marks : ts.map Token.mark = Mark.commas (Expr.marksEntries es) ++ [.closeList])
    (pairs : es ≠ [] → ∃ ds s, Pairs ts ds s ∧ Expr.EntriesAlike upToSpans ds es) :
    ∃ ds s, Entries ts ds s ∧ Expr.EntriesAlike upToSpans ds es := by
  cases es with
  | nil =>
    obtain ⟨t, rfl, closed⟩ := Token.of_map_mark_singleton marks
    exact ⟨_, _, .none closed, .nil⟩
  | cons e es =>
    obtain ⟨ds, s, pairs, alikes⟩ := pairs (by simp)
    exact ⟨ds, s, .some pairs, alikes⟩
/-- An open statement that no parenthesis goes on with is followed by whatever is no operator. -/
theorem not_continues {r : Expr} {t : Token} {m : Mark} (found : t.is m) (kind : m.kind ≠ .operator)
    (apart : ¬ (m = .openGroup ∧ r.isCallable)) : ¬ Continues r t := by
  have mark := Token.is_iff_mark.mp found
  rintro (plus | minus | ⟨opens, callable⟩)
  · exact kind (by rw [← mark, Token.is_iff_mark.mp plus]; rfl)
  · exact kind (by rw [← mark, Token.is_iff_mark.mp minus]; rfl)
  · exact apart ⟨mark.symm.trans (Token.is_iff_mark.mp opens), callable⟩

end Grammar

/-! ### Trees of given marks -/

/-- The lists of statements in a tree are apart. -/
def AllApart (lists : List (List Statement)) : Prop := ∀ as ∈ lists, Statement.Apart as

theorem allApart_append {ls ms : List (List Statement)} : AllApart (ls ++ ms) ↔ AllApart ls ∧ AllApart ms :=
  List.forall_mem_append
theorem Showable.lawful {nodes : List Expr} (showable : Showable nodes) : ∀ n ∈ nodes, n.Lawful :=
  fun n member => (showable n member).1

mutual
/-- Tokens with the marks of an expression derive it up to spans. -/
theorem Expr.derives : ∀ (e : Expr) {ts : List Token}, Showable e.nodes → AllApart e.lists →
    ts.map Token.mark = e.marks → ∃ d, Derives .call ts d d ∧ d.Alike upToSpans e
  | .identifier i, ts, _, _, marks => by
    rw [Expr.marks] at marks
    obtain ⟨t, rfl, found⟩ := Token.of_map_mark_singleton marks
    obtain ⟨kind, value⟩ := Token.is_iff.mp found
    exact ⟨_, .ofPrimary (.identifier kind), .identifier ⟨value, trivial, trivial⟩⟩
  | .number x s, ts, showable, _, marks => by
    rw [Expr.nodes, showable_cons] at showable
    rw [Expr.marks] at marks
    obtain ⟨t, rfl, found⟩ := Token.of_map_mark_singleton marks
    obtain ⟨kind, value⟩ := Token.is_iff.mp found
    obtain ⟨⟨⟨d, e, rfl⟩, finite⟩, _⟩ := showable
    obtain ⟨c, cs, text, _, _, read⟩ := Decimal.read?_render finite
    rw [← text] at read
    exact ⟨_, .ofPrimary (.number kind (value ▸ read)), .number _ trivial⟩
  | .boolean b s, ts, _, _, marks => by
    rw [Expr.marks] at marks
    obtain ⟨t, rfl, found⟩ := Token.of_map_mark_singleton marks
    obtain ⟨kind, value⟩ := Token.is_iff.mp found
    exact ⟨_, .ofPrimary (.boolean kind value), .boolean b trivial⟩
  | .string w s, ts, _, _, marks => by
    rw [Expr.marks] at marks
    obtain ⟨t, rfl, found⟩ := Token.of_map_mark_singleton marks
    obtain ⟨kind, rfl⟩ := Token.is_iff.mp found
    exact ⟨_, .ofPrimary (.string kind), .string _ trivial⟩
  | .prefixed op e s, ts, showable, apart, marks => by
    rw [Expr.nodes, showable_cons] at showable
    rw [Expr.lists] at apart
    rw [Expr.marks] at marks
    obtain ⟨t, us, rfl, opens, rest⟩ := Token.of_map_mark_cons marks
    obtain ⟨u, vs, rfl, lead, rest⟩ := Token.of_map_mark_cons rest
    obtain ⟨vs, ws, rfl, inner, rest⟩ := List.map_eq_append_iff.mp rest
    obtain ⟨w, rfl, closes⟩ := Token.of_map_mark_singleton rest
    obtain ⟨d, derived, alike⟩ := Expr.derives e showable.2 apart inner
    have operation := Derives.lead lead (derived.weaken (m := .prefixed) (by decide))
    exact Derives.grouped opens (operation.weaken (by decide)) closes (.prefixed op alike trivial)
  | .binary op l r s, ts, showable, apart, marks => by
    rw [Expr.nodes, showable_cons, showable_append] at showable
    rw [Expr.lists, allApart_append] at apart
    rw [Expr.marks] at marks
    obtain ⟨t, us, rfl, opens, rest⟩ := Token.of_map_mark_cons marks
    obtain ⟨us, vs, rfl, inner, rest⟩ := List.map_eq_append_iff.mp rest
    obtain ⟨v, vs, rfl, found, rest⟩ := Token.of_map_mark_cons rest
    obtain ⟨vs, ws, rfl, inner', rest⟩ := List.map_eq_append_iff.mp rest
    obtain ⟨w, rfl, closes⟩ := Token.of_map_mark_singleton rest
    obtain ⟨d, left, alike⟩ := Expr.derives l showable.2.1 apart.1 inner
    obtain ⟨e, right, alike'⟩ := Expr.derives r showable.2.2 apart.2 inner'
    have regroup : t :: (us ++ v :: (vs ++ [w])) = t :: ((us ++ v :: vs) ++ [w]) := by simp
    rw [regroup]
    exact Derives.grouped opens (left.operation found right) closes (.binary op alike alike' trivial)
  | .function is b s, ts, showable, apart, marks => by
    rw [Expr.nodes, showable_cons] at showable
    rw [Expr.lists] at apart
    rw [Expr.marks] at marks
    obtain ⟨t, us, rfl, word, rest⟩ := Token.of_map_mark_cons marks
    obtain ⟨u, us, rfl, opens, rest⟩ := Token.of_map_mark_cons rest
    rw [List.append_cons] at rest
    obtain ⟨us, vs, rfl, inner, rest⟩ := List.map_eq_append_iff.mp rest
    obtain ⟨js, parameters, named⟩ := Parameters.of_marks inner
    obtain ⟨c, block, alike⟩ := Block.derives b showable.2 apart rest
    exact ⟨_, .ofPrimary (.function word opens parameters block), .function named alike trivial⟩
  | .call e es s, ts, showable, apart, marks => by
    rw [Expr.nodes, showable_cons, showable_append] at showable
    rw [Expr.lists, allApart_append] at apart
    rw [Expr.marks] at marks
    obtain ⟨ts, us, rfl, inner, rest⟩ := List.map_eq_append_iff.mp marks
    obtain ⟨u, us, rfl, opens, rest⟩ := Token.of_map_mark_cons rest
    obtain ⟨d, derived, alike⟩ := Expr.derives e showable.2.1 apart.1 inner
    obtain ⟨ds, s, elements, alikes⟩ := Elements.of_marks rest fun nonempty =>
      Expr.derives_items es nonempty showable.2.2 apart.2 rest
    have callable : d.isCallable := alike.isCallable.trans showable.1.1
    exact ⟨_, .call derived callable opens elements, .call alike alikes trivial⟩
  | .assignment i e s, ts, showable, apart, marks => by
    rw [Expr.nodes, showable_cons] at showable
    rw [Expr.lists] at apart
    rw [Expr.marks] at marks
    obtain ⟨t, us, rfl, opens, rest⟩ := Token.of_map_mark_cons marks
    obtain ⟨u, vs, rfl, target, rest⟩ := Token.of_map_mark_cons rest
    obtain ⟨v, vs, rfl, assign, rest⟩ := Token.of_map_mark_cons rest
    obtain ⟨vs, ws, rfl, inner, rest⟩ := List.map_eq_append_iff.mp rest
    obtain ⟨w, rfl, closes⟩ := Token.of_map_mark_singleton rest
    obtain ⟨kind, value⟩ := Token.is_iff.mp target
    obtain ⟨d, derived, alike⟩ := Expr.derives e showable.2 apart inner
    have operation := Derives.assign (.name kind) assign (derived.weaken (by decide))
    exact Derives.grouped opens operation closes (.assignment ⟨value, trivial, trivial⟩ alike trivial)
  | .list es s, ts, showable, apart, marks => by
    rw [Expr.nodes, showable_cons] at showable
    rw [Expr.lists] at apart
    rw [Expr.marks] at marks
    obtain ⟨t, us, rfl, opens, rest⟩ := Token.of_map_mark_cons marks
    obtain ⟨ds, s, elements, alikes⟩ := Elements.of_marks rest fun nonempty =>
      Expr.derives_items es nonempty showable.2 apart rest
    exact ⟨_, .ofPrimary (.list opens elements), .list alikes trivial⟩
  | .table es s, ts, showable, apart, marks => by
    rw [Expr.nodes, showable_cons] at showable
    rw [Expr.lists] at apart
    rw [Expr.marks] at marks
    obtain ⟨t, us, rfl, opens, rest⟩ := Token.of_map_mark_cons marks
    obtain ⟨u, us, rfl, marker, rest⟩ := Token.of_map_mark_cons rest
    obtain ⟨ds, s, entries, alikes⟩ := Entries.of_marks rest fun nonempty =>
      Expr.derives_pairs es nonempty showable.2 apart rest
    exact ⟨_, .ofPrimary (.table opens marker entries), .table alikes trivial⟩
theorem Expr.derives_items : ∀ (es : List Expr) {close : Mark} {ts : List Token}, es ≠ [] →
    Showable (Expr.nodesAll es) → AllApart (Expr.listsAll es) →
    ts.map Token.mark = Mark.commas (Expr.marksAll es) ++ [close] →
    ∃ ds s, Items close ts ds s ∧ Expr.AllAlike upToSpans ds es
  | [], _, _, nonempty, _, _, _ => absurd rfl nonempty
  | [e], close, ts, _, showable, apart, marks => by
    rw [Expr.nodesAll, showable_append] at showable
    rw [Expr.listsAll, allApart_append] at apart
    rw [Expr.marksAll, Expr.marksAll, Mark.commas, List.intercalate_singleton] at marks
    obtain ⟨ts, us, rfl, inner, rest⟩ := List.map_eq_append_iff.mp marks
    obtain ⟨u, rfl, closed⟩ := Token.of_map_mark_singleton rest
    obtain ⟨d, derived, alike⟩ := Expr.derives e showable.1 apart.1 inner
    exact ⟨_, _, .last (derived.weaken (by decide)) closed, .cons alike .nil⟩
  | e :: e' :: es, close, ts, _, showable, apart, marks => by
    rw [Expr.nodesAll, showable_append] at showable
    rw [Expr.listsAll, allApart_append] at apart
    rw [Expr.marksAll, Expr.marksAll, Mark.commas, List.intercalate_cons_cons, List.append_assoc,
      List.append_assoc] at marks
    obtain ⟨ts, us, rfl, inner, rest⟩ := List.map_eq_append_iff.mp marks
    obtain ⟨u, us, rfl, comma, rest⟩ := Token.of_map_mark_cons rest
    obtain ⟨d, derived, alike⟩ := Expr.derives e showable.1 apart.1 inner
    obtain ⟨ds, s, items, alikes⟩ := Expr.derives_items (e' :: es) (by simp) showable.2 apart.2 rest
    exact ⟨_, _, .more (derived.weaken (by decide)) comma items, .cons alike alikes⟩
theorem Expr.derives_pairs : ∀ (es : List (Expr × Expr)) {ts : List Token}, es ≠ [] →
    Showable (Expr.nodesEntries es) → AllApart (Expr.listsEntries es) →
    ts.map Token.mark = Mark.commas (Expr.marksEntries es) ++ [.closeList] →
    ∃ ds s, Pairs ts ds s ∧ Expr.EntriesAlike upToSpans ds es
  | [], _, nonempty, _, _, _ => absurd rfl nonempty
  | [(k, e)], ts, _, showable, apart, marks => by
    rw [Expr.nodesEntries, showable_append, showable_append] at showable
    rw [Expr.listsEntries, allApart_append, allApart_append] at apart
    rw [Expr.marksEntries, Expr.marksEntries, Mark.commas, List.intercalate_singleton, List.append_assoc] at marks
    obtain ⟨ts, us, rfl, inner, rest⟩ := List.map_eq_append_iff.mp marks
    obtain ⟨u, us, rfl, colon, rest⟩ := Token.of_map_mark_cons rest
    obtain ⟨us, vs, rfl, inner', rest⟩ := List.map_eq_append_iff.mp rest
    obtain ⟨v, rfl, closed⟩ := Token.of_map_mark_singleton rest
    obtain ⟨c, key, alike⟩ := Expr.derives k showable.1.1 apart.1.1 inner
    obtain ⟨d, value, alike'⟩ := Expr.derives e showable.1.2 apart.1.2 inner'
    exact ⟨_, _, .last (key.weaken (by decide)) colon (value.weaken (by decide)) closed, .cons alike alike' .nil⟩
  | (k, e) :: entry :: es, ts, _, showable, apart, marks => by
    rw [Expr.nodesEntries, showable_append, showable_append] at showable
    rw [Expr.listsEntries, allApart_append, allApart_append] at apart
    rw [Expr.marksEntries, Expr.marksEntries, Mark.commas, List.intercalate_cons_cons] at marks
    simp only [List.append_assoc, List.cons_append, List.nil_append] at marks
    obtain ⟨ts, us, rfl, inner, rest⟩ := List.map_eq_append_iff.mp marks
    obtain ⟨u, us, rfl, colon, rest⟩ := Token.of_map_mark_cons rest
    obtain ⟨us, vs, rfl, inner', rest⟩ := List.map_eq_append_iff.mp rest
    obtain ⟨v, vs, rfl, comma, rest⟩ := Token.of_map_mark_cons rest
    obtain ⟨c, key, alike⟩ := Expr.derives k showable.1.1 apart.1.1 inner
    obtain ⟨d, value, alike'⟩ := Expr.derives e showable.1.2 apart.1.2 inner'
    obtain ⟨ds, s, pairs, alikes⟩ := Expr.derives_pairs (entry :: es) (by simp) showable.2 apart.2 rest
    exact ⟨_, _, .more (key.weaken (by decide)) colon (value.weaken (by decide)) comma pairs,
      .cons alike alike' alikes⟩
/-- Tokens with the marks of a statement derive it up to spans; it is open to a parenthesis
    only if it ends in what is callable. -/
theorem Statement.derives : ∀ (a : Statement) {ts : List Token}, Showable a.nodes → AllApart a.lists →
    ts.map Token.mark = a.marks →
    ∃ b o, Bare ts b o ∧ b.Alike upToSpans a ∧ ∀ r ∈ o, r.isCallable → a.endsCallable
  | .branch e b none s, ts, showable, apart, marks => by
    rw [Statement.nodes, showable_append] at showable
    rw [Statement.lists, allApart_append] at apart
    rw [Statement.marks] at marks
    obtain ⟨t, us, rfl, word, rest⟩ := Token.of_map_mark_cons marks
    obtain ⟨us, vs, rfl, inner, rest⟩ := List.map_eq_append_iff.mp rest
    obtain ⟨d, derived, alike⟩ := Expr.derives e showable.1 apart.1 inner
    obtain ⟨c, block, alike'⟩ := Block.derives b showable.2 apart.2 rest
    exact ⟨_, _, .branch word (derived.weaken (by decide)) block, .branch alike alike' trivial, by simp⟩
  | .branch e b (some c) s, ts, showable, apart, marks => by
    rw [Statement.nodes, showable_append, showable_append] at showable
    rw [Statement.lists, allApart_append, allApart_append] at apart
    rw [Statement.marks] at marks
    obtain ⟨t, us, rfl, word, rest⟩ := Token.of_map_mark_cons marks
    obtain ⟨us, vs, rfl, inner, rest⟩ := List.map_eq_append_iff.mp rest
    obtain ⟨vs, ws, rfl, inner', rest⟩ := List.map_eq_append_iff.mp rest
    obtain ⟨w, ws, rfl, word', rest⟩ := Token.of_map_mark_cons rest
    obtain ⟨d, derived, alike⟩ := Expr.derives e showable.1.1 apart.1.1 inner
    obtain ⟨b', block, alike'⟩ := Block.derives b showable.1.2 apart.1.2 inner'
    obtain ⟨c', block', alike''⟩ := Block.derives c showable.2 apart.2 rest
    exact ⟨_, _, .branchElse word (derived.weaken (by decide)) block word' block',
      .branchElse alike alike' alike'' trivial, by simp⟩
  | .giveBack e s, ts, showable, apart, marks => by
    rw [Statement.nodes] at showable
    rw [Statement.lists] at apart
    rw [Statement.marks] at marks
    obtain ⟨t, us, rfl, word, rest⟩ := Token.of_map_mark_cons marks
    obtain ⟨d, derived, alike⟩ := Expr.derives e showable apart rest
    refine ⟨_, _, .giveBack word (derived.weaken (by decide)), .giveBack alike trivial, ?_⟩
    rintro r ⟨⟩ callable
    exact alike.isCallable.symm.trans callable
  | .expression e, ts, showable, apart, marks => by
    rw [Statement.nodes] at showable
    rw [Statement.lists] at apart
    rw [Statement.marks] at marks
    obtain ⟨d, derived, alike⟩ := Expr.derives e showable apart marks
    refine ⟨_, _, .expression (derived.weaken (by decide)), .expression alike, ?_⟩
    rintro r ⟨⟩ callable
    exact alike.isCallable.symm.trans callable
theorem Statement.derives_all : ∀ (as : List Statement) {ts : List Token},
    Showable (Statement.nodesAll as) → AllApart (Statement.listsAll as) → Statement.Apart as →
    ts.map Token.mark = (Statement.marksAll as).flatten →
    ∃ bs, Statements ts bs ∧ Statement.AllAlike upToSpans bs as
  | [], ts, _, _, _, marks => by
    rw [List.map_eq_nil_iff.mp marks]
    exact ⟨[], .nil, .nil⟩
  | a :: as, ts, showable, apart, chain, marks => by
    rw [Statement.nodesAll, showable_append] at showable
    rw [Statement.listsAll, allApart_append] at apart
    rw [Statement.marksAll, List.flatten_cons] at marks
    obtain ⟨ts, us, rfl, inner, rest⟩ := List.map_eq_append_iff.mp marks
    obtain ⟨b, o, bare, alike, open_⟩ := Statement.derives a showable.1 apart.1 inner
    obtain ⟨bs, statements, alikes⟩ := Statement.derives_all as showable.2 apart.2 (List.isChain_cons.mp chain).2 rest
    refine ⟨b :: bs, .cons (.bare bare) statements ?_, .cons alike alikes⟩
    intro r last t front
    cases as with
    | nil =>
      rw [List.map_eq_nil_iff.mp rest] at front
      cases front
    | cons a' as =>
      rw [Statement.nodesAll, showable_append] at showable
      obtain ⟨m, ms, split, kind, group⟩ := a'.front showable.2.1.lawful
      rw [Statement.marksAll, List.flatten_cons, split] at rest
      obtain ⟨u, us, rfl, found, _⟩ := Token.of_map_mark_cons rest
      cases front
      refine not_continues found kind ?_
      rintro ⟨opens, callable⟩
      exact (List.isChain_cons_cons.mp chain).1 ⟨open_ r last callable, group opens⟩
theorem Block.derives : ∀ (b : Block) {ts : List Token}, Showable b.nodes → AllApart b.lists →
    ts.map Token.mark = b.marks → ∃ c, OfBlock ts c ∧ c.Alike upToSpans b
  | ⟨as, s⟩, ts, showable, apart, marks => by
    rw [Block.nodes] at showable
    rw [Block.lists, AllApart, List.forall_mem_cons] at apart
    rw [Block.marks] at marks
    obtain ⟨t, us, rfl, opens, rest⟩ := Token.of_map_mark_cons marks
    obtain ⟨us, vs, rfl, inner, rest⟩ := List.map_eq_append_iff.mp rest
    obtain ⟨v, rfl, closes⟩ := Token.of_map_mark_singleton rest
    obtain ⟨bs, statements, alikes⟩ := Statement.derives_all as showable apart.2 apart.1 inner
    exact ⟨_, .mk opens statements closes, .mk alikes trivial⟩
end

namespace Program

/-- The canonical text of a program is read as the program again, up to spans, unless it
    cannot show what is in the program: a string with a quote, an infinite number, or two
    statements of which the second would go on with the first. -/
theorem ofSource_render {source : String} {p : Program} (read : ofSource source = .ok p)
    (plain : ∀ e ∈ p.nodes, e.Plain) (apart : ∀ as ∈ p.lists, Statement.Apart as) :
    ∃ q, ofSource p.render = .ok q ∧ q.Alike upToSpans p := by
  have showable : Showable p.nodes := fun e member => ⟨lawful_of_ofSource read e member, plain e member⟩
  obtain ⟨own, inner⟩ := List.forall_mem_cons.mp apart
  obtain ⟨bs, statements, alikes⟩ :=
    Statement.derives_all p.statements showable inner own (marks_render showable)
  refine ⟨⟨bs, spanOf bs (Token.scan p.render).finish⟩, ?_, alikes, trivial⟩
  exact (ofTokens_iff_derives (kind_ne_finish_of_scan p.render) _).mpr ⟨statements, rfl⟩

set_option maxRecDepth 100000 in
/-- A program with an assignment and an operator behind it. -/
theorem ofSource_render_assignment :
    ∃ p q, ofSource "x = 'a'; -x" = .ok p ∧ ofSource p.render = .ok q ∧ q.Alike upToSpans p := by
  have read : ofSource "x = 'a'; -x" = .ok
      ⟨[.expression (.assignment ⟨"x", ⟨⟨0, 0⟩, ⟨0, 0⟩⟩⟩ (.string "a" ⟨⟨0, 4⟩, ⟨0, 6⟩⟩) ⟨⟨0, 0⟩, ⟨0, 6⟩⟩),
        .expression (.prefixed .minus (.identifier ⟨"x", ⟨⟨0, 10⟩, ⟨0, 10⟩⟩⟩) ⟨⟨0, 9⟩, ⟨0, 10⟩⟩)],
        ⟨⟨0, 0⟩, ⟨0, 10⟩⟩⟩ := by cbv
  obtain ⟨q, again, alike⟩ := ofSource_render read
    (by simp [nodes, Statement.nodesAll, Statement.nodes, Expr.nodes, Expr.Plain])
    (by simp [lists, Statement.listsAll, Statement.lists, Expr.lists, Statement.Apart, Statement.endsCallable,
      Expr.isCallable])
  exact ⟨_, q, read, again, alike⟩

end Program
end KoreanScript
