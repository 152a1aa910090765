import Mathlib.Data.List.Forall2
import KoreanScript.Builtin

/-!
Trees that are alike: one is the other with spans that stand in for the spans
there, and all names in them count, except that the name of a builtin need not
where a call names the builtin directly. What spans may stand in for others and
which names count are parameters. Trees that are alike have one text.
-/
namespace KoreanScript

/-- Which spans stand in for others, and which names count. -/
structure Likeness where
  spans : Span → Span → Prop
  names : String → Prop

namespace Likeness

/-- Equality up to spans. -/
def upToSpans : Likeness := ⟨fun _ _ => True, fun _ => True⟩
/-- Equality. -/
def exact : Likeness := ⟨Eq, fun _ => True⟩

/-- The same name, at places that stand in for each other. -/
structure Named (L : Likeness) (i j : Identifier) : Prop where
  name : i.name = j.name
  counts : L.names i.name
  span : L.spans i.span j.span

/-- Whether every tree is like itself. -/
structure Reflexive (L : Likeness) : Prop where
  spans (s : Span) : L.spans s s
  names (n : String) : L.names n

theorem exact_reflexive : exact.Reflexive := ⟨fun _ => rfl, fun _ => trivial⟩
theorem Reflexive.named {L : Likeness} (reflexive : L.Reflexive) (i : Identifier) : L.Named i i :=
  ⟨rfl, reflexive.names i.name, reflexive.spans i.span⟩

end Likeness

mutual
inductive Expr.Alike (L : Likeness) : Expr → Expr → Prop
  | identifier {i j : Identifier} : L.Named i j → Expr.Alike L (.identifier i) (.identifier j)
  | number (x : Float) {s t : Span} : L.spans s t → Expr.Alike L (.number x s) (.number x t)
  | boolean (b : Bool) {s t : Span} : L.spans s t → Expr.Alike L (.boolean b s) (.boolean b t)
  | string (w : String) {s t : Span} : L.spans s t → Expr.Alike L (.string w s) (.string w t)
  | prefixed (op : PrefixOperator) {d e : Expr} {s t : Span} :
    Expr.Alike L d e → L.spans s t → Expr.Alike L (.prefixed op d s) (.prefixed op e t)
  | binary (op : InfixOperator) {d e l r : Expr} {s t : Span} :
    Expr.Alike L d e → Expr.Alike L l r → L.spans s t →
      Expr.Alike L (.binary op d l s) (.binary op e r t)
  | function {is js : List Identifier} {b c : Block} {s t : Span} :
    List.Forall₂ L.Named is js → Block.Alike L b c → L.spans s t →
      Expr.Alike L (.function is b s) (.function js c t)
  | call {d e : Expr} {ds es : List Expr} {s t : Span} :
    Expr.Alike L d e → Expr.AllAlike L ds es → L.spans s t →
      Expr.Alike L (.call d ds s) (.call e es t)
  | callBuiltin {b : Builtin} {i j : Identifier} {ds es : List Expr} {s t : Span} :
    Builtin.ofName? i.name = some b → i.name = j.name → L.spans i.span j.span →
      Expr.AllAlike L ds es → L.spans s t →
      Expr.Alike L (.call (.identifier i) ds s) (.call (.identifier j) es t)
  | assignment {i j : Identifier} {d e : Expr} {s t : Span} :
    L.Named i j → Expr.Alike L d e → L.spans s t →
      Expr.Alike L (.assignment i d s) (.assignment j e t)
  | list {ds es : List Expr} {s t : Span} :
    Expr.AllAlike L ds es → L.spans s t → Expr.Alike L (.list ds s) (.list es t)
  | table {ds es : List (Expr × Expr)} {s t : Span} :
    Expr.EntriesAlike L ds es → L.spans s t → Expr.Alike L (.table ds s) (.table es t)
inductive Expr.AllAlike (L : Likeness) : List Expr → List Expr → Prop
  | nil : Expr.AllAlike L [] []
  | cons {d e : Expr} {ds es : List Expr} :
    Expr.Alike L d e → Expr.AllAlike L ds es → Expr.AllAlike L (d :: ds) (e :: es)
inductive Expr.EntriesAlike (L : Likeness) : List (Expr × Expr) → List (Expr × Expr) → Prop
  | nil : Expr.EntriesAlike L [] []
  | cons {k l d e : Expr} {ds es : List (Expr × Expr)} :
    Expr.Alike L k l → Expr.Alike L d e → Expr.EntriesAlike L ds es →
      Expr.EntriesAlike L ((k, d) :: ds) ((l, e) :: es)
inductive Statement.Alike (L : Likeness) : Statement → Statement → Prop
  | branch {d e : Expr} {b c : Block} {s t : Span} :
    Expr.Alike L d e → Block.Alike L b c → L.spans s t →
      Statement.Alike L (.branch d b none s) (.branch e c none t)
  | branchElse {d e : Expr} {a b c z : Block} {s t : Span} :
    Expr.Alike L d e → Block.Alike L b c → Block.Alike L a z → L.spans s t →
      Statement.Alike L (.branch d b (some a) s) (.branch e c (some z) t)
  | giveBack {d e : Expr} {s t : Span} :
    Expr.Alike L d e → L.spans s t → Statement.Alike L (.giveBack d s) (.giveBack e t)
  | expression {d e : Expr} : Expr.Alike L d e → Statement.Alike L (.expression d) (.expression e)
inductive Statement.AllAlike (L : Likeness) : List Statement → List Statement → Prop
  | nil : Statement.AllAlike L [] []
  | cons {a b : Statement} {as bs : List Statement} :
    Statement.Alike L a b → Statement.AllAlike L as bs → Statement.AllAlike L (a :: as) (b :: bs)
inductive Block.Alike (L : Likeness) : Block → Block → Prop
  | mk {as bs : List Statement} {s t : Span} :
    Statement.AllAlike L as bs → L.spans s t → Block.Alike L ⟨as, s⟩ ⟨bs, t⟩
end

structure Program.Alike (L : Likeness) (p q : Program) : Prop where
  statements : Statement.AllAlike L p.statements q.statements
  span : L.spans p.span q.span

section
variable {L : Likeness}

theorem Expr.Alike.withSpan {d e : Expr} (alike : d.Alike L e) {s t : Span} (spans : L.spans s t) :
    (d.withSpan s).Alike L (e.withSpan t) := by
  cases alike with
  | identifier named => exact .identifier ⟨named.name, named.counts, spans⟩
  | number x _ => exact .number x spans
  | boolean b _ => exact .boolean b spans
  | string w _ => exact .string w spans
  | prefixed op operand _ => exact .prefixed op operand spans
  | binary op left right _ => exact .binary op left right spans
  | function parameters body _ => exact .function parameters body spans
  | call callee arguments _ => exact .call callee arguments spans
  | callBuiltin found name span arguments _ => exact .callBuiltin found name span arguments spans
  | assignment target value _ => exact .assignment target value spans
  | list elements _ => exact .list elements spans
  | table entries _ => exact .table entries spans
theorem Expr.Alike.isCallable {d e : Expr} (alike : d.Alike L e) : d.isCallable = e.isCallable := by
  cases alike <;> rfl
theorem Expr.Alike.span {d e : Expr} (alike : d.Alike L e) : L.spans d.span e.span := by
  cases alike with
  | identifier named => exact named.span
  | number _ spans | boolean _ spans | string _ spans | prefixed _ _ spans | binary _ _ _ spans
  | function _ _ spans | call _ _ spans | callBuiltin _ _ _ _ spans | assignment _ _ spans
  | list _ spans | table _ spans => exact spans

theorem Block.Alike.statements {b c : Block} (alike : b.Alike L c) :
    Statement.AllAlike L b.statements c.statements := by
  cases alike with
  | mk statements _ => exact statements
theorem Block.Alike.span {b c : Block} (alike : b.Alike L c) : L.spans b.span c.span := by
  cases alike with
  | mk _ spans => exact spans
theorem Statement.Alike.span {a b : Statement} (alike : a.Alike L b) : L.spans a.span b.span := by
  cases alike with
  | branch _ _ spans | branchElse _ _ _ spans | giveBack _ spans => exact spans
  | expression alike => exact alike.span

/-! ### Likeness to itself -/

mutual
theorem Expr.Alike.refl (reflexive : L.Reflexive) : ∀ e : Expr, e.Alike L e
  | .identifier i => .identifier (reflexive.named i)
  | .number x s => .number x (reflexive.spans s)
  | .boolean b s => .boolean b (reflexive.spans s)
  | .string w s => .string w (reflexive.spans s)
  | .prefixed op e s => .prefixed op (Expr.Alike.refl reflexive e) (reflexive.spans s)
  | .binary op l r s => .binary op (Expr.Alike.refl reflexive l) (Expr.Alike.refl reflexive r) (reflexive.spans s)
  | .function _ b s =>
    .function (List.forall₂_same.mpr fun i _ => reflexive.named i) (Block.Alike.refl reflexive b) (reflexive.spans s)
  | .call e es s => .call (Expr.Alike.refl reflexive e) (Expr.AllAlike.refl reflexive es) (reflexive.spans s)
  | .assignment i e s => .assignment (reflexive.named i) (Expr.Alike.refl reflexive e) (reflexive.spans s)
  | .list es s => .list (Expr.AllAlike.refl reflexive es) (reflexive.spans s)
  | .table es s => .table (Expr.EntriesAlike.refl reflexive es) (reflexive.spans s)
theorem Expr.AllAlike.refl (reflexive : L.Reflexive) : ∀ es : List Expr, Expr.AllAlike L es es
  | [] => .nil
  | e :: es => .cons (Expr.Alike.refl reflexive e) (Expr.AllAlike.refl reflexive es)
theorem Expr.EntriesAlike.refl (reflexive : L.Reflexive) : ∀ es : List (Expr × Expr), Expr.EntriesAlike L es es
  | [] => .nil
  | (k, e) :: es =>
    .cons (Expr.Alike.refl reflexive k) (Expr.Alike.refl reflexive e) (Expr.EntriesAlike.refl reflexive es)
theorem Statement.Alike.refl (reflexive : L.Reflexive) : ∀ a : Statement, a.Alike L a
  | .branch e b none s => .branch (Expr.Alike.refl reflexive e) (Block.Alike.refl reflexive b) (reflexive.spans s)
  | .branch e b (some c) s =>
    .branchElse (Expr.Alike.refl reflexive e) (Block.Alike.refl reflexive b) (Block.Alike.refl reflexive c)
      (reflexive.spans s)
  | .giveBack e s => .giveBack (Expr.Alike.refl reflexive e) (reflexive.spans s)
  | .expression e => .expression (Expr.Alike.refl reflexive e)
theorem Statement.AllAlike.refl (reflexive : L.Reflexive) : ∀ as : List Statement, Statement.AllAlike L as as
  | [] => .nil
  | a :: as => .cons (Statement.Alike.refl reflexive a) (Statement.AllAlike.refl reflexive as)
theorem Block.Alike.refl (reflexive : L.Reflexive) : ∀ b : Block, b.Alike L b
  | ⟨as, s⟩ => .mk (Statement.AllAlike.refl reflexive as) (reflexive.spans s)
end

end

/-! ### Likeness of equal trees only -/

theorem Identifier.eq_of {i j : Identifier} (name : i.name = j.name) (span : i.span = j.span) : i = j := by
  obtain ⟨name', span'⟩ := i
  cases name
  cases span
  rfl

/-- Whether no span stands in for another one. -/
def Likeness.Strict (L : Likeness) : Prop := ∀ ⦃s t : Span⦄, L.spans s t → s = t

section
variable {L : Likeness}

theorem Likeness.Named.eq (same : L.Strict) {i j : Identifier} (named : L.Named i j) : i = j :=
  Identifier.eq_of named.name (same named.span)
theorem names_same (same : L.Strict) {is js : List Identifier} (named : List.Forall₂ L.Named is js) : is = js := by
  induction named with
  | nil => rfl
  | cons first _ ih => rw [first.eq same, ih]

mutual
/-- Where no span stands in for another, no tree is like another. -/
theorem Expr.Alike.eq (same : L.Strict) : ∀ {d e : Expr}, d.Alike L e → d = e
  | _, _, .identifier named => by rw [named.eq same]
  | _, _, .number _ spans | _, _, .boolean _ spans | _, _, .string _ spans => by
    cases same spans
    rfl
  | _, _, .prefixed _ operand spans => by
    cases same spans
    rw [operand.eq same]
  | _, _, .binary _ left right spans => by
    cases same spans
    rw [left.eq same, right.eq same]
  | _, _, .function parameters body spans => by
    cases same spans
    rw [names_same same parameters, body.eq same]
  | _, _, .call callee arguments spans => by
    cases same spans
    rw [callee.eq same, arguments.eq same]
  | _, _, .callBuiltin _ name span arguments spans => by
    cases same spans
    rw [Identifier.eq_of name (same span), arguments.eq same]
  | _, _, .assignment target value spans => by
    cases same spans
    rw [target.eq same, value.eq same]
  | _, _, .list elements spans => by
    cases same spans
    rw [elements.eq same]
  | _, _, .table entries spans => by
    cases same spans
    rw [entries.eq same]
theorem Expr.AllAlike.eq (same : L.Strict) : ∀ {ds es : List Expr}, Expr.AllAlike L ds es → ds = es
  | _, _, .nil => rfl
  | _, _, .cons first rest => by rw [first.eq same, rest.eq same]
theorem Expr.EntriesAlike.eq (same : L.Strict) : ∀ {ds es : List (Expr × Expr)}, Expr.EntriesAlike L ds es → ds = es
  | _, _, .nil => rfl
  | _, _, .cons key value rest => by rw [key.eq same, value.eq same, rest.eq same]
theorem Statement.Alike.eq (same : L.Strict) : ∀ {a b : Statement}, a.Alike L b → a = b
  | _, _, .branch predicate block spans => by
    cases same spans
    rw [predicate.eq same, block.eq same]
  | _, _, .branchElse predicate block other spans => by
    cases same spans
    rw [predicate.eq same, block.eq same, other.eq same]
  | _, _, .giveBack value spans => by
    cases same spans
    rw [value.eq same]
  | _, _, .expression alike => by rw [alike.eq same]
theorem Statement.AllAlike.eq (same : L.Strict) : ∀ {as bs : List Statement}, Statement.AllAlike L as bs → as = bs
  | _, _, .nil => rfl
  | _, _, .cons first rest => by rw [first.eq same, rest.eq same]
theorem Block.Alike.eq (same : L.Strict) : ∀ {b c : Block}, b.Alike L c → b = c
  | _, _, .mk statements spans => by
    cases same spans
    rw [statements.eq same]
end

end

/-! ### One text -/

section
variable {L : Likeness}

theorem names_eq {is js : List Identifier} (named : List.Forall₂ L.Named is js) :
    is.map Identifier.name = js.map Identifier.name := by
  induction named with
  | nil => rfl
  | cons first _ ih => rw [List.map_cons, List.map_cons, first.name, ih]

mutual
theorem Expr.Alike.render_eq : ∀ {d e : Expr}, d.Alike L e → d.render = e.render
  | _, _, .identifier named => by rw [Expr.render, Expr.render, named.name]
  | _, _, .number _ _ | _, _, .boolean _ _ | _, _, .string _ _ => by rw [Expr.render, Expr.render]
  | _, _, .prefixed _ operand _ => by rw [Expr.render, Expr.render, operand.render_eq]
  | _, _, .binary _ left right _ => by rw [Expr.render, Expr.render, left.render_eq, right.render_eq]
  | _, _, .function parameters body _ => by
    rw [Expr.render, Expr.render, names_eq parameters, body.render_eq]
  | _, _, .call callee arguments _ => by
    rw [Expr.render, Expr.render, callee.render_eq, arguments.render_eq]
  | _, _, .callBuiltin _ name _ arguments _ => by
    rw [Expr.render, Expr.render, Expr.render, Expr.render, name, arguments.render_eq]
  | _, _, .assignment target value _ => by
    rw [Expr.render, Expr.render, target.name, value.render_eq]
  | _, _, .list elements _ => by rw [Expr.render, Expr.render, elements.render_eq]
  | _, _, .table entries _ => by rw [Expr.render, Expr.render, entries.render_eq]
theorem Expr.AllAlike.render_eq : ∀ {ds es : List Expr}, Expr.AllAlike L ds es →
    Expr.renderAll ds = Expr.renderAll es
  | _, _, .nil => rfl
  | _, _, .cons first rest => by rw [Expr.renderAll, Expr.renderAll, first.render_eq, rest.render_eq]
theorem Expr.EntriesAlike.render_eq : ∀ {ds es : List (Expr × Expr)}, Expr.EntriesAlike L ds es →
    Expr.renderEntries ds = Expr.renderEntries es
  | _, _, .nil => rfl
  | _, _, .cons key value rest => by
    rw [Expr.renderEntries, Expr.renderEntries, key.render_eq, value.render_eq, rest.render_eq]
theorem Statement.Alike.render_eq : ∀ {a b : Statement}, a.Alike L b → a.render = b.render
  | _, _, .branch predicate block _ => by
    rw [Statement.render, Statement.render, predicate.render_eq, block.render_eq]
  | _, _, .branchElse predicate block other _ => by
    rw [Statement.render, Statement.render, predicate.render_eq, block.render_eq, other.render_eq]
  | _, _, .giveBack value _ => by rw [Statement.render, Statement.render, value.render_eq]
  | _, _, .expression alike => by rw [Statement.render, Statement.render, alike.render_eq]
theorem Statement.AllAlike.render_eq : ∀ {as bs : List Statement}, Statement.AllAlike L as bs →
    Statement.renderAll as = Statement.renderAll bs
  | _, _, .nil => rfl
  | _, _, .cons first rest => by
    rw [Statement.renderAll, Statement.renderAll, first.render_eq, rest.render_eq]
theorem Statement.AllAlike.isEmpty_eq {as bs : List Statement} (alike : Statement.AllAlike L as bs) :
    as.isEmpty = bs.isEmpty := by
  cases alike <;> rfl
theorem Block.Alike.render_eq : ∀ {b c : Block}, b.Alike L c → b.render = c.render
  | _, _, .mk statements _ => by
    rw [Block.render, Block.render, statements.isEmpty_eq, statements.render_eq]
end

end
end KoreanScript
