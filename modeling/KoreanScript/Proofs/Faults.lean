import KoreanScript.Proofs.Confinement
import KoreanScript.Proofs.Nodes

/-!
The errors of programs. A well-scoped program never meets a name that is unbound, and
each error of a session's text is pinned to a node of that text or of an earlier one
whose part it is to fail so.
-/
namespace KoreanScript

namespace Session

/-- A program that is well scoped never meets an unbound name where nothing has been bound before
    it, whatever becomes of its functions. -/
theorem wellScoped_never_unbound {p : Program} (passes : p.wellScoped) (depth : Nat) (x : Execution) :
    (initial.observe (p.eval depth globals) = some x →
      ∀ name span, x.result ≠ .error (.eval ⟨.unbound name, span⟩)) ∧
    ∀ source, Program.ofSource source = .ok p → initial.execute depth source = some x →
      ∀ name span, x.result ≠ .error (.eval ⟨.unbound name, span⟩) := by
  have bound : initial.observe (p.eval depth globals) = some x →
      ∀ name span, x.result ≠ .error (.eval ⟨.unbound name, span⟩) := by
    intro observed name span failed
    have sited : initial.store.Sited (· ∈ p.sites) := Store.Sited.initial.push (by simp) (by simp)
    obtain ⟨_, _, _, faults⟩ := observe_confined sited (by simp [initial, globals, Store.push]) (fun _ => id) observed
    rcases faults _ failed with ⟨_, site, ⟨unknown⟩⟩ | ⟨_, cause, _⟩
    · have known := List.all_eq_true.mp passes _ site
      exact unknown (List.contains_iff_mem.mp known)
    · cases cause
  refine ⟨bound, fun source read executed => bound ?_⟩
  rwa [execute, read] at executed

/-- A function that is given to itself and calls what it is given. -/
theorem wellScoped_never_unbound_self :
    let here : Span := ⟨⟨0, 0⟩, ⟨0, 0⟩⟩
    let name (s : String) : Expr := .identifier ⟨s, here⟩
    let again : Block := ⟨[.expression (.call (name "f") [name "f", .boolean true here] here)], here⟩
    let body : Block := ⟨[.branch (name "last") ⟨[.expression (name "f")], here⟩ (some again) here], here⟩
    let p : Program := ⟨[.expression (.assignment ⟨"g", here⟩ (.function [⟨"f", here⟩, ⟨"last", here⟩] body here) here),
      .expression (.call (name "g") [name "g", .boolean false here] here)], here⟩
    p.wellScoped ∧ ∃ x, initial.observe (p.eval 2 globals) = some x ∧
      ∀ name span, x.result ≠ .error (.eval ⟨.unbound name, span⟩) := by
  intro here name again body p
  have passes : p.wellScoped := by decide
  have ends : (initial.observe (p.eval 2 globals)).isSome := by
    simp only [p, body, again, name]
    cbv
  obtain ⟨x, observed⟩ := Option.isSome_iff_exists.mp ends
  exact ⟨passes, x, observed, (wellScoped_never_unbound passes 2 x).1 observed⟩

end Session

/-! ### Nodes of errors -/

namespace Builtin

/-- Keys are refused by those builtins only that take one. -/
theorem Refuses.takes_key {b : Builtin} {found : String} (refuses : b.Refuses (.key found)) :
    b ∈ [insert, remove, find] := by
  obtain ⟨vs, refused⟩ := refuses
  cases b with
  | insert | remove | find => simp
  | write => cases refused
  | length =>
    rcases vs with _ | ⟨v, _ | ⟨w, rest⟩⟩
    · cases refused
    · cases v <;> cases refused
    · cases v <;> cases refused
theorem name_of_ofName? {s : String} {b : Builtin} (named : ofName? s = some b) : s = b.name := by
  have same := List.find?_some named
  exact (eq_of_beq same).symm

end Builtin

section
variable (E : Expr → Prop) (A : Statement → Prop)

/-- `e.PinnedTo E A`: the error has the span of a node among the expressions `E` and statements `A`,
    of the kind that can fail for its cause. -/
def EvalError.PinnedTo (e : EvalError) : Prop :=
  match e.cause with
  | .unbound _ => ∃ i, E (.identifier i) ∧ i.name = e.cause.received ∧ i.span = e.span
  | .predicate _ => ∃ p b c span, A (.branch p b c span) ∧ p.span = e.span
  | .operand _ _ => ∃ o : Expr, o.span = e.span ∧ ((∃ op span, E (.prefixed op o span)) ∨
      ∃ op l r span, E (.binary op l r span) ∧ (o = l ∨ o = r))
  | .callTarget _ => ∃ c es span, E (.call c es span) ∧ c.span = e.span
  | .tableKey _ => ∃ k v es span, E (.table es span) ∧ (k, v) ∈ es ∧ k.span = e.span
  | .builtin _ (.key _) => ∃ i es, E (.call (.identifier i) es e.span) ∧
      i.name ∈ [Builtin.insert.name, Builtin.remove.name, Builtin.find.name]
  | .builtin _ r => ∃ i es, E (.call (.identifier i) es e.span) ∧ e.cause.expected = r.wanted ++ " for `" ++ i.name ++ "`"
  | .topLevelReturn _ => ∃ v, A (.giveBack v e.span)

/-- Whether a site is what it says, a part of an expression of `E` or of a statement of `A`. -/
def Site.In : Site → Prop
  | .name _ i => E (.identifier i)
  | .operand o => (∃ op span, E (.prefixed op o span)) ∨ ∃ op l r span, E (.binary op l r span) ∧ (o = l ∨ o = r)
  | .callee c => ∃ es span, E (.call c es span)
  | .key k => ∃ v es span, E (.table es span) ∧ (k, v) ∈ es
  | .predicate p => ∃ b c span, A (.branch p b c span)
  | .builtin b span => ∃ i es, E (.call (.identifier i) es span) ∧ i.name = b.name

end

section
variable {E : Expr → Prop} {A : Statement → Prop}

/-- An error that arises at a site is pinned to the node that the site is part of. -/
theorem Site.Explains.pinned {x : Site} {e : EvalError} (explains : x.Explains e) (within : x.In E A) : e.PinnedTo E A := by
  cases explains with
  | name _ => exact ⟨_, within, rfl, rfl⟩
  | operand o _ _ => exact ⟨o, rfl, within⟩
  | callee c _ =>
    obtain ⟨es, span, call⟩ := within
    exact ⟨c, es, span, call, rfl⟩
  | key k _ =>
    obtain ⟨v, es, span, table, entry⟩ := within
    exact ⟨k, v, es, span, table, entry, rfl⟩
  | predicate p _ =>
    obtain ⟨b, c, span, branch⟩ := within
    exact ⟨p, b, c, span, branch, rfl⟩
  | @builtin b r span refuses =>
    obtain ⟨i, es, call, named⟩ := within
    cases r with
    | key found =>
      have takes := List.mem_map_of_mem (f := Builtin.name) refuses.takes_key
      exact ⟨i, es, call, named ▸ takes⟩
    | count _ _ | kind _ _ | indexKind _ | index _ _ | missingKey _ =>
      refine ⟨i, es, call, ?_⟩
      rw [named]
      rfl

mutual
theorem Expr.sites_in : ∀ (known : List String) (e : Expr), (∀ n ∈ e.nodes, E n) → (∀ as ∈ e.lists, ∀ a ∈ as, A a) →
    ∀ x ∈ e.sites known, x.In E A
  | _, .identifier i, nodes, _ => by
    rw [Expr.sites, List.forall_mem_singleton]
    exact nodes _ (by simp [Expr.nodes])
  | _, .number _ _, _, _ | _, .boolean _ _, _, _ | _, .string _ _, _, _ => by simp [Expr.sites]
  | known, .prefixed op e span, nodes, lists => by
    rw [Expr.nodes, List.forall_mem_cons] at nodes
    rw [Expr.lists] at lists
    rw [Expr.sites, List.forall_mem_append, List.forall_mem_singleton]
    exact ⟨Expr.sites_in known e nodes.2 lists, .inl ⟨op, span, nodes.1⟩⟩
  | known, .binary op l r span, nodes, lists => by
    rw [Expr.nodes, List.forall_mem_cons, List.forall_mem_append] at nodes
    obtain ⟨own, left, right⟩ := nodes
    rw [Expr.lists, List.forall_mem_append] at lists
    rw [Expr.sites, List.forall_mem_append, List.forall_mem_append, List.forall_mem_cons, List.forall_mem_singleton]
    refine ⟨Expr.sites_in known l left lists.1, Expr.sites_in _ r right lists.2, ?_, ?_⟩
    · exact .inr ⟨op, l, r, span, own, .inl rfl⟩
    · exact .inr ⟨op, l, r, span, own, .inr rfl⟩
  | known, .function is b _, nodes, lists => by
    rw [Expr.nodes, List.forall_mem_cons] at nodes
    rw [Expr.lists] at lists
    rw [Expr.sites]
    exact Block.sites_in _ b nodes.2 lists
  | known, .call e es span, nodes, lists => by
    rw [Expr.nodes, List.forall_mem_cons, List.forall_mem_append] at nodes
    obtain ⟨own, callee, arguments⟩ := nodes
    rw [Expr.lists, List.forall_mem_append] at lists
    rw [Expr.sites]
    split
    · next b named =>
      rw [List.forall_mem_append, List.forall_mem_singleton]
      refine ⟨Expr.sitesAll_in known es arguments lists.2, ?_⟩
      cases e with
      | identifier i => exact ⟨i, es, own, Builtin.name_of_ofName? named⟩
      | _ => cases named
    · rw [List.forall_mem_append, List.forall_mem_append, List.forall_mem_singleton]
      exact ⟨Expr.sites_in known e callee lists.1, Expr.sitesAll_in _ es arguments lists.2, es, span, own⟩
  | known, .assignment _ e _, nodes, lists => by
    rw [Expr.nodes, List.forall_mem_cons] at nodes
    rw [Expr.lists] at lists
    rw [Expr.sites]
    exact Expr.sites_in known e nodes.2 lists
  | known, .list es _, nodes, lists => by
    rw [Expr.nodes, List.forall_mem_cons] at nodes
    rw [Expr.lists] at lists
    rw [Expr.sites]
    exact Expr.sitesAll_in known es nodes.2 lists
  | known, .table es span, nodes, lists => by
    rw [Expr.nodes, List.forall_mem_cons] at nodes
    rw [Expr.lists] at lists
    rw [Expr.sites]
    exact Expr.sitesEntries_in known es nodes.2 lists fun e entry => ⟨e.2, es, span, nodes.1, entry⟩
theorem Expr.sitesAll_in : ∀ (known : List String) (es : List Expr), (∀ n ∈ Expr.nodesAll es, E n) →
    (∀ as ∈ Expr.listsAll es, ∀ a ∈ as, A a) → ∀ x ∈ Expr.sitesAll known es, x.In E A
  | _, [], _, _ => by simp [Expr.sitesAll]
  | known, e :: es, nodes, lists => by
    rw [Expr.nodesAll, List.forall_mem_append] at nodes
    rw [Expr.listsAll, List.forall_mem_append] at lists
    rw [Expr.sitesAll, List.forall_mem_append]
    exact ⟨Expr.sites_in known e nodes.1 lists.1, Expr.sitesAll_in _ es nodes.2 lists.2⟩
theorem Expr.sitesEntries_in : ∀ (known : List String) (es : List (Expr × Expr)), (∀ n ∈ Expr.nodesEntries es, E n) →
    (∀ as ∈ Expr.listsEntries es, ∀ a ∈ as, A a) → (∀ e ∈ es, (Site.key e.1).In E A) →
      ∀ x ∈ Expr.sitesEntries known es, x.In E A
  | _, [], _, _, _ => by simp [Expr.sitesEntries]
  | known, (k, e) :: es, nodes, lists, keys => by
    rw [Expr.nodesEntries, List.forall_mem_append, List.forall_mem_append] at nodes
    rw [Expr.listsEntries, List.forall_mem_append, List.forall_mem_append] at lists
    rw [List.forall_mem_cons] at keys
    rw [Expr.sitesEntries, List.forall_mem_append, List.forall_mem_cons, List.forall_mem_append]
    exact ⟨Expr.sites_in known k nodes.1.1 lists.1.1, keys.1, Expr.sites_in _ e nodes.1.2 lists.1.2,
      Expr.sitesEntries_in _ es nodes.2 lists.2 keys.2⟩
theorem Statement.sites_in : ∀ (known : List String) (a : Statement), A a → (∀ n ∈ a.nodes, E n) →
    (∀ as ∈ a.lists, ∀ b ∈ as, A b) → ∀ x ∈ a.sites known, x.In E A
  | known, .branch e b none span, own, nodes, lists => by
    rw [Statement.nodes, List.forall_mem_append] at nodes
    rw [Statement.lists, List.forall_mem_append] at lists
    rw [Statement.sites, List.forall_mem_append, List.forall_mem_cons]
    exact ⟨Expr.sites_in known e nodes.1 lists.1, ⟨b, none, span, own⟩, Block.sites_in _ b nodes.2 lists.2⟩
  | known, .branch e b (some c) span, own, nodes, lists => by
    rw [Statement.nodes, List.forall_mem_append, List.forall_mem_append] at nodes
    rw [Statement.lists, List.forall_mem_append, List.forall_mem_append] at lists
    rw [Statement.sites, List.forall_mem_append, List.forall_mem_cons, List.forall_mem_append]
    exact ⟨Expr.sites_in known e nodes.1.1 lists.1.1, ⟨b, some c, span, own⟩,
      Block.sites_in _ b nodes.1.2 lists.1.2, Block.sites_in _ c nodes.2 lists.2⟩
  | known, .giveBack e _, _, nodes, lists | known, .expression e, _, nodes, lists => by
    rw [Statement.nodes] at nodes
    rw [Statement.lists] at lists
    rw [Statement.sites]
    exact Expr.sites_in known e nodes lists
theorem Statement.sitesAll_in : ∀ (known : List String) (as : List Statement), (∀ a ∈ as, A a) →
    (∀ n ∈ Statement.nodesAll as, E n) → (∀ bs ∈ Statement.listsAll as, ∀ b ∈ bs, A b) →
      ∀ x ∈ Statement.sitesAll known as, x.In E A
  | _, [], _, _, _ => by simp [Statement.sitesAll]
  | known, a :: as, own, nodes, lists => by
    rw [List.forall_mem_cons] at own
    rw [Statement.nodesAll, List.forall_mem_append] at nodes
    rw [Statement.listsAll, List.forall_mem_append] at lists
    rw [Statement.sitesAll, List.forall_mem_append]
    exact ⟨Statement.sites_in known a own.1 nodes.1 lists.1, Statement.sitesAll_in _ as own.2 nodes.2 lists.2⟩
theorem Block.sites_in : ∀ (known : List String) (b : Block), (∀ n ∈ b.nodes, E n) →
    (∀ as ∈ b.lists, ∀ a ∈ as, A a) → ∀ x ∈ b.sites known, x.In E A
  | known, ⟨as, _⟩, nodes, lists => by
    rw [Block.nodes] at nodes
    rw [Block.lists, List.forall_mem_cons] at lists
    rw [Block.sites]
    exact Statement.sitesAll_in known as lists.1 nodes lists.2
end

mutual
theorem Statement.returns_in : ∀ a : Statement, A a → (∀ as ∈ a.lists, ∀ b ∈ as, A b) →
    ∀ span ∈ a.returns, ∃ v, A (.giveBack v span)
  | .branch _ b none _, _, lists => by
    rw [Statement.lists, List.forall_mem_append] at lists
    rw [Statement.returns]
    exact Block.returns_in b lists.2
  | .branch _ b (some c) _, _, lists => by
    rw [Statement.lists, List.forall_mem_append, List.forall_mem_append] at lists
    rw [Statement.returns, List.forall_mem_append]
    exact ⟨Block.returns_in b lists.1.2, Block.returns_in c lists.2⟩
  | .giveBack e span, own, _ => by
    rw [Statement.returns, List.forall_mem_singleton]
    exact ⟨e, own⟩
  | .expression _, _, _ => by simp [Statement.returns]
theorem Statement.returnsAll_in : ∀ as : List Statement, (∀ a ∈ as, A a) → (∀ bs ∈ Statement.listsAll as, ∀ b ∈ bs, A b) →
    ∀ span ∈ Statement.returnsAll as, ∃ v, A (.giveBack v span)
  | [], _, _ => by simp [Statement.returnsAll]
  | a :: as, own, lists => by
    rw [List.forall_mem_cons] at own
    rw [Statement.listsAll, List.forall_mem_append] at lists
    rw [Statement.returnsAll, List.forall_mem_append]
    exact ⟨Statement.returns_in a own.1 lists.1, Statement.returnsAll_in as own.2 lists.2⟩
theorem Block.returns_in : ∀ b : Block, (∀ as ∈ b.lists, ∀ a ∈ as, A a) → ∀ span ∈ b.returns, ∃ v, A (.giveBack v span)
  | ⟨as, _⟩, lists => by
    rw [Block.lists, List.forall_mem_cons] at lists
    rw [Block.returns]
    exact Statement.returnsAll_in as lists.1 lists.2
end

end

namespace Program
variable {ps : List Program}

/-- An expression of one of some programs. -/
def ExpressionOf (ps : List Program) (e : Expr) : Prop := ∃ p ∈ ps, e ∈ p.nodes
/-- A statement of one of some programs, of those at its top or of a block's. -/
def StatementOf (ps : List Program) (a : Statement) : Prop := ∃ p ∈ ps, ∃ as ∈ p.lists, a ∈ as
/-- A site of one of some programs. -/
def SiteOf (ps : List Program) (x : Site) : Prop := ∃ p ∈ ps, x ∈ p.sites

theorem SiteOf.within {x : Site} (site : SiteOf ps x) : x.In (ExpressionOf ps) (StatementOf ps) := by
  obtain ⟨p, member, inside⟩ := site
  refine Statement.sitesAll_in [] p.statements ?_ ?_ ?_ x inside
  · exact fun a own => ⟨p, member, _, List.mem_cons_self, own⟩
  · exact fun n node => ⟨p, member, node⟩
  · exact fun as list a own => ⟨p, member, as, List.mem_cons_of_mem _ list, own⟩
/-- A fault of one of some programs is pinned to a node of one of them. -/
theorem Faults.pinned {p : Program} (member : p ∈ ps) {e : EvalError} (faults : p.Faults (SiteOf ps) e) :
    e.PinnedTo (ExpressionOf ps) (StatementOf ps) := by
  rcases faults with ⟨x, site, explains⟩ | ⟨v, cause, source⟩
  · exact explains.pinned site.within
  · rw [EvalError.PinnedTo, cause]
    refine Statement.returnsAll_in p.statements ?_ ?_ e.span source
    · exact fun a own => ⟨p, member, _, List.mem_cons_self, own⟩
    · exact fun as list a own => ⟨p, member, as, List.mem_cons_of_mem _ list, own⟩

end Program

namespace Session
open Program (ExpressionOf StatementOf SiteOf)

/-- `Ran ps s`: the session `s` has run the programs `ps`, the last one first, and has refused any
    texts that are no programs. -/
inductive Ran : List Program → Session → Prop
  | new : Ran [] initial
  | refused {ps : List Program} {s : Session} {x : Execution} {source : String} {e : ParseError} (depth : Nat) :
    Ran ps s → Program.ofSource source = .error e → s.execute depth source = some x → Ran ps x.session
  | program {ps : List Program} {s : Session} {x : Execution} {source : String} {p : Program} (depth : Nat) :
    Ran ps s → Program.ofSource source = .ok p → s.execute depth source = some x → Ran (p :: ps) x.session

variable {ps : List Program} {p : Program} {s : Session} {depth : Nat} {x : Execution}

/-- A program adds its sites to those of the programs that have made a store what it is. -/
theorem observe_sites (sited : s.store.Sited (SiteOf ps)) (present : globals < s.store.frames.size)
    (observed : s.observe (p.eval depth globals) = some x) :
    x.session.store.Sited (SiteOf (p :: ps)) ∧ globals < x.session.store.frames.size ∧
      ∀ e, x.result = .error (.eval e) → p.Faults (SiteOf (p :: ps)) e := by
  have more : s.store.Sited (SiteOf (p :: ps)) :=
    sited.weaken fun _ ⟨q, member, inside⟩ => ⟨q, List.mem_cons_of_mem _ member, inside⟩
  have own : ∀ y ∈ p.sites, SiteOf (p :: ps) y := fun _ inside => ⟨p, List.mem_cons_self, inside⟩
  obtain ⟨sited, grows, _, faults⟩ := observe_confined more present own observed
  exact ⟨sited, grows.lt_size present, faults⟩
/-- All functions in the store of a session have their sites in the programs that it has run. -/
theorem Ran.sited (ran : Ran ps s) : s.store.Sited (SiteOf ps) ∧ globals < s.store.frames.size := by
  induction ran with
  | new => exact ⟨Store.Sited.initial.push (by simp) (by simp), by simp [initial, globals, Store.push]⟩
  | refused depth _ unread executed ih =>
    rw [execute_of_error unread executed]
    exact ih
  | program depth _ read executed ih =>
    rw [execute, read] at executed
    obtain ⟨sited, present, _⟩ := observe_sites ih.1 ih.2 executed
    exact ⟨sited, present⟩

/-- Whichever text of a session fails in its evaluation, the span of the error is that of a node of
    its program or of one that has run before, and the node is of the kind that fails in this way. -/
theorem errors_pinned (ran : Ran ps s) {source : String} {e : EvalError} (executed : s.execute depth source = some x)
    (failed : x.result = .error (.eval e)) :
    ∃ p, Program.ofSource source = .ok p ∧ e.PinnedTo (ExpressionOf (p :: ps)) (StatementOf (p :: ps)) := by
  cases read : Program.ofSource source with
  | error r =>
    rw [execute, read] at executed
    cases executed
    cases failed
  | ok p =>
    rw [execute, read] at executed
    obtain ⟨_, _, faults⟩ := observe_sites ran.sited.1 ran.sited.2 executed
    exact ⟨p, rfl, (faults e failed).pinned List.mem_cons_self⟩

set_option maxRecDepth 100000 in
/-- A function of the first text that fails when the second calls it. -/
theorem errors_pinned_earlier :
    let e : EvalError := ⟨.callTarget .boolean, ⟨⟨0, 12⟩, ⟨0, 12⟩⟩⟩
    ∃ p s x, Program.ofSource "가 = 함수(나) \x7b 나(나) \x7d" = .ok p ∧ Ran [p] s ∧ s.execute 2 "가(참)" = some x ∧
      x.result = .error (.eval e) ∧ ∃ q, Program.ofSource "가(참)" = .ok q ∧
        e.PinnedTo (ExpressionOf [q, p]) (StatementOf [q, p]) := by
  intro e
  let parameter : Identifier := ⟨"나", ⟨⟨0, 7⟩, ⟨0, 7⟩⟩⟩
  let body : Block := ⟨[.expression (.call (.identifier ⟨"나", ⟨⟨0, 12⟩, ⟨0, 12⟩⟩⟩) [.identifier ⟨"나", ⟨⟨0, 14⟩, ⟨0, 14⟩⟩⟩]
    ⟨⟨0, 12⟩, ⟨0, 15⟩⟩)], ⟨⟨0, 10⟩, ⟨0, 17⟩⟩⟩
  let f : Value := .function ⟨0, [parameter], body, globals⟩
  let s : Session := ⟨⟨#[⟨[("가", f)], none⟩], 1, #[]⟩⟩
  have read : Program.ofSource "가 = 함수(나) \x7b 나(나) \x7d" = .ok ⟨[.expression (.assignment ⟨"가", ⟨⟨0, 0⟩, ⟨0, 0⟩⟩⟩
      (.function [parameter] body ⟨⟨0, 4⟩, ⟨0, 17⟩⟩) ⟨⟨0, 0⟩, ⟨0, 17⟩⟩)], ⟨⟨0, 0⟩, ⟨0, 17⟩⟩⟩ := by cbv
  have first : initial.execute 1 "가 = 함수(나) \x7b 나(나) \x7d" = some ⟨.ok f, [], s⟩ := by
    rw [execute, read]
    cbv
  have second : s.execute 2 "가(참)" = some ⟨.error (.eval e), [],
      ⟨⟨#[⟨[("가", f)], none⟩, ⟨[("나", .boolean true)], some globals⟩], 1, #[]⟩⟩⟩ := by cbv
  have ran : Ran _ s := .program 1 .new read first
  exact ⟨_, s, _, read, ran, second, rfl, errors_pinned ran second rfl⟩

end Session
end KoreanScript
