import KoreanScript.Evaluation

/-!
Where evaluation can fail. A walk through a tree in the order of its evaluation keeps
account of the names that are bound for certain, and lists the places at which an
evaluation of the tree may fail: names, operands, callees, keys, predicates and calls of
builtins. A program is well scoped if each name on this walk is one of those bound there.
-/
namespace KoreanScript

mutual
/-- The names that are bound once an expression has been evaluated where `known` are. What a
    function binds is bound in its calls only. -/
def Expr.binds (known : List String) : Expr → List String
  | .identifier _ | .number _ _ | .boolean _ _ | .string _ _ | .function _ _ _ => known
  | .prefixed _ e _ => e.binds known
  | .binary _ l r _ => r.binds (l.binds known)
  | .call e es _ => Expr.bindsAll (e.binds known) es
  | .assignment i e _ => i.name :: e.binds known
  | .list es _ => Expr.bindsAll known es
  | .table es _ => Expr.bindsEntries known es
def Expr.bindsAll (known : List String) : List Expr → List String
  | [] => known
  | e :: es => Expr.bindsAll (e.binds known) es
def Expr.bindsEntries (known : List String) : List (Expr × Expr) → List String
  | [] => known
  | (k, e) :: es => Expr.bindsEntries (e.binds (k.binds known)) es
end

/-- The names that are bound once a statement has been evaluated; what a block binds is bound in
    the block only. -/
def Statement.binds (known : List String) : Statement → List String
  | .branch e _ _ _ | .giveBack e _ | .expression e => e.binds known

/-- A place at which an evaluation may fail. -/
inductive Site where
  /-- An expression that is a name, where `known` are bound. -/
  | name (known : List String) (i : Identifier)
  | operand (e : Expr)
  | callee (e : Expr)
  /-- A key of a table literal. -/
  | key (e : Expr)
  | predicate (e : Expr)
  /-- A call that names a builtin. -/
  | builtin (b : Builtin) (span : Span)

mutual
/-- The places at which an expression may fail that is evaluated where `known` are bound. The body
    of a function is evaluated where its parameters are bound, too. -/
def Expr.sites (known : List String) : Expr → List Site
  | .identifier i => [.name known i]
  | .number _ _ | .boolean _ _ | .string _ _ => []
  | .prefixed _ e _ => e.sites known ++ [.operand e]
  | .binary _ l r _ => l.sites known ++ (r.sites (l.binds known) ++ [.operand l, .operand r])
  | .function is b _ => b.sites (is.map Identifier.name ++ known)
  | .call e es span =>
    match e.builtin? with
    | some b => Expr.sitesAll known es ++ [.builtin b span]
    | none => e.sites known ++ (Expr.sitesAll (e.binds known) es ++ [.callee e])
  | .assignment _ e _ => e.sites known
  | .list es _ => Expr.sitesAll known es
  | .table es _ => Expr.sitesEntries known es
def Expr.sitesAll (known : List String) : List Expr → List Site
  | [] => []
  | e :: es => e.sites known ++ Expr.sitesAll (e.binds known) es
def Expr.sitesEntries (known : List String) : List (Expr × Expr) → List Site
  | [] => []
  | (k, e) :: es =>
    k.sites known ++ .key k :: (e.sites (k.binds known) ++ Expr.sitesEntries (e.binds (k.binds known)) es)
def Statement.sites (known : List String) : Statement → List Site
  | .branch e b none _ => e.sites known ++ .predicate e :: b.sites (e.binds known)
  | .branch e b (some c) _ =>
    e.sites known ++ .predicate e :: (b.sites (e.binds known) ++ c.sites (e.binds known))
  | .giveBack e _ | .expression e => e.sites known
def Statement.sitesAll (known : List String) : List Statement → List Site
  | [] => []
  | a :: as => a.sites known ++ Statement.sitesAll (a.binds known) as
def Block.sites (known : List String) : Block → List Site
  | ⟨as, _⟩ => Statement.sitesAll known as
end

mutual
/-- The spans of the returns in a statement that stand in no function. -/
def Statement.returns : Statement → List Span
  | .branch _ b none _ => b.returns
  | .branch _ b (some c) _ => b.returns ++ c.returns
  | .giveBack _ span => [span]
  | .expression _ => []
def Statement.returnsAll : List Statement → List Span
  | [] => []
  | a :: as => a.returns ++ Statement.returnsAll as
def Block.returns : Block → List Span
  | ⟨as, _⟩ => Statement.returnsAll as
end

/-- Whether the builtin refuses some arguments for the reason `r`. -/
def Builtin.Refuses (b : Builtin) (r : Builtin.Refusal) : Prop := ∃ vs, b.answer vs = .error r

/-- The errors that may arise at a place. -/
inductive Site.Explains : Site → EvalError → Prop
  | name {known : List String} {i : Identifier} :
    i.name ∉ known → Site.Explains (.name known i) ⟨.unbound i.name, i.span⟩
  | operand (e : Expr) (found : ValueKind) (accepted : List ValueKind) :
    Site.Explains (.operand e) ⟨.operand found accepted, e.span⟩
  | callee (e : Expr) (found : ValueKind) : Site.Explains (.callee e) ⟨.callTarget found, e.span⟩
  | key (e : Expr) (found : String) : Site.Explains (.key e) ⟨.tableKey found, e.span⟩
  | predicate (e : Expr) (found : ValueKind) : Site.Explains (.predicate e) ⟨.predicate found, e.span⟩
  | builtin {b : Builtin} {r : Builtin.Refusal} {span : Span} :
    b.Refuses r → Site.Explains (.builtin b span) ⟨.builtin b r, span⟩

/-- Whether a name is one of those bound at its place; there is nothing to ask of other places. -/
def Site.bound : Site → Bool
  | .name known i => known.contains i.name
  | .operand _ | .callee _ | .key _ | .predicate _ | .builtin _ _ => true

namespace Program

/-- The places at which a program may fail where nothing is bound. -/
def sites (p : Program) : List Site := Statement.sitesAll [] p.statements
/-- Whether each name of the program is bound where it stands, as far as the order of evaluation
    tells. The name of a builtin that is called by it counts for nothing. -/
def wellScoped (p : Program) : Bool := p.sites.all Site.bound

end Program

theorem Block.sites_eq (known : List String) (b : Block) : b.sites known = Statement.sitesAll known b.statements := by
  cases b
  rw [sites]
theorem Expr.binds_of_builtin {e : Expr} {b : Builtin} (named : e.builtin? = some b) (known : List String) :
    e.binds known = known := by
  cases e with
  | identifier _ => rw [binds]
  | _ => cases named

end KoreanScript
