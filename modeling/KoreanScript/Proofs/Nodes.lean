import KoreanScript.Proofs.Numerals
import KoreanScript.Proofs.Recognition

/-!
The nodes of a syntax tree and its lists of statements, and the laws that every
tree of a text keeps: what stands for a name is one, numbers are the doubles
nearest to decimals, and only what is callable is called.
-/
namespace KoreanScript

mutual
/-- The expressions in an expression, itself included. -/
def Expr.nodes : Expr → List Expr
  | .identifier i => [.identifier i]
  | .number x s => [.number x s]
  | .boolean b s => [.boolean b s]
  | .string t s => [.string t s]
  | .prefixed op e s => .prefixed op e s :: e.nodes
  | .binary op l r s => .binary op l r s :: (l.nodes ++ r.nodes)
  | .function is b s => .function is b s :: b.nodes
  | .call e es s => .call e es s :: (e.nodes ++ Expr.nodesAll es)
  | .assignment i e s => .assignment i e s :: e.nodes
  | .list es s => .list es s :: Expr.nodesAll es
  | .table es s => .table es s :: Expr.nodesEntries es
def Expr.nodesAll : List Expr → List Expr
  | [] => []
  | e :: es => e.nodes ++ Expr.nodesAll es
def Expr.nodesEntries : List (Expr × Expr) → List Expr
  | [] => []
  | (k, e) :: es => k.nodes ++ e.nodes ++ Expr.nodesEntries es
def Statement.nodes : Statement → List Expr
  | .branch e b none _ => e.nodes ++ b.nodes
  | .branch e b (some c) _ => e.nodes ++ b.nodes ++ c.nodes
  | .giveBack e _ => e.nodes
  | .expression e => e.nodes
def Statement.nodesAll : List Statement → List Expr
  | [] => []
  | a :: as => a.nodes ++ Statement.nodesAll as
def Block.nodes : Block → List Expr
  | ⟨as, _⟩ => Statement.nodesAll as
end

mutual
/-- The statements of the blocks in an expression, one list a block. -/
def Expr.lists : Expr → List (List Statement)
  | .identifier _ | .number _ _ | .boolean _ _ | .string _ _ => []
  | .prefixed _ e _ => e.lists
  | .binary _ l r _ => l.lists ++ r.lists
  | .function _ b _ => b.lists
  | .call e es _ => e.lists ++ Expr.listsAll es
  | .assignment _ e _ => e.lists
  | .list es _ => Expr.listsAll es
  | .table es _ => Expr.listsEntries es
def Expr.listsAll : List Expr → List (List Statement)
  | [] => []
  | e :: es => e.lists ++ Expr.listsAll es
def Expr.listsEntries : List (Expr × Expr) → List (List Statement)
  | [] => []
  | (k, e) :: es => k.lists ++ e.lists ++ Expr.listsEntries es
def Statement.lists : Statement → List (List Statement)
  | .branch e b none _ => e.lists ++ b.lists
  | .branch e b (some c) _ => e.lists ++ b.lists ++ c.lists
  | .giveBack e _ => e.lists
  | .expression e => e.lists
def Statement.listsAll : List Statement → List (List Statement)
  | [] => []
  | a :: as => a.lists ++ Statement.listsAll as
def Block.lists : Block → List (List Statement)
  | ⟨as, _⟩ => as :: Statement.listsAll as
end

/-- The expressions in a program. -/
def Program.nodes (p : Program) : List Expr := Statement.nodesAll p.statements
/-- The statements of a program and of the blocks in it. -/
def Program.lists (p : Program) : List (List Statement) := p.statements :: Statement.listsAll p.statements

/-- The law of one node. -/
def Expr.Lawful : Expr → Prop
  | .identifier i => IsName i.name
  | .number x _ => ∃ d e, x = Decimal.nearest d e
  | .function is _ _ => ∀ i ∈ is, IsName i.name
  | .call e _ _ => e.isCallable
  | .assignment i _ _ => IsName i.name
  | .boolean _ _ | .string _ _ | .prefixed _ _ _ | .binary _ _ _ _ | .list _ _ | .table _ _ => True

theorem Expr.nodes_withSpan (s : Span) (e : Expr) : (e.withSpan s).nodes = e.withSpan s :: e.nodes.tail := by
  cases e <;> simp only [withSpan, nodes, List.tail_cons]
theorem Expr.lawful_withSpan (s : Span) (e : Expr) : (e.withSpan s).Lawful ↔ e.Lawful := by
  cases e <;> exact Iff.rfl
theorem Expr.nodes_head (e : Expr) : e ∈ e.nodes := by
  cases e <;> simp [nodes]
theorem Expr.all_lawful_withSpan {e : Expr} (lawful : ∀ n ∈ e.nodes, n.Lawful) (s : Span) :
    ∀ n ∈ (e.withSpan s).nodes, n.Lawful := by
  intro n member
  rw [nodes_withSpan] at member
  rcases List.mem_cons.mp member with rfl | later
  · exact (lawful_withSpan s e).mpr (lawful e (nodes_head e))
  · exact lawful n (List.mem_of_mem_tail later)

namespace Grammar

/-- The values of some tokens go with their kinds. -/
def Denoting (ts : List Token) : Prop := ∀ t ∈ ts, t.kind.Denotes t.value

theorem denoting_append {ts us : List Token} : Denoting (ts ++ us) ↔ Denoting ts ∧ Denoting us :=
  List.forall_mem_append
theorem denoting_cons {t : Token} {ts : List Token} :
    Denoting (t :: ts) ↔ t.kind.Denotes t.value ∧ Denoting ts :=
  List.forall_mem_cons
theorem isName_of_kind {t : Token} (kind : t.kind = .identifier) (denotes : t.kind.Denotes t.value) :
    IsName t.value := by
  rwa [kind] at denotes
theorem nearest_of_kind {t : Token} {x : Float} (kind : t.kind = .number)
    (denotes : t.kind.Denotes t.value) (read : Decimal.read? t.value = some x) :
    ∃ d e, x = Decimal.nearest d e := by
  rw [kind] at denotes
  obtain ⟨c, cs, value, digit, more⟩ := denotes
  rw [value, Decimal.read?_digits digit more] at read
  split at read
  · exact ⟨_, _, (Option.some.inj read).symm⟩
  · cases read
theorem Target.isName {ts : List Token} {i : Identifier} (target : Target ts i) (denoting : Denoting ts) :
    IsName i.name := by
  induction target with
  | name kind => exact isName_of_kind kind (denoting_cons.mp denoting).1
  | group _ _ _ ih => exact ih (denoting_append.mp (denoting_cons.mp denoting).2).1
theorem Names.isName {close : Mark} {ts : List Token} {is : List Identifier} {s : Span}
    (names : Names close ts is s) (denoting : Denoting ts) : ∀ i ∈ is, IsName i.name := by
  induction names with
  | last kind _ =>
    rintro i member
    cases List.mem_singleton.mp member
    exact isName_of_kind kind (denoting_cons.mp denoting).1
  | more kind _ _ ih =>
    intro i member
    obtain ⟨first, rest⟩ := denoting_cons.mp denoting
    rcases List.mem_cons.mp member with rfl | later
    · exact isName_of_kind kind first
    · exact ih (denoting_cons.mp rest).2 i later
theorem Parameters.isName {ts : List Token} {is : List Identifier} (parameters : Parameters ts is)
    (denoting : Denoting ts) : ∀ i ∈ is, IsName i.name := by
  cases parameters with
  | none _ => simp
  | some names => exact names.isName denoting

mutual
theorem Derives.lawful : ∀ {l : Level} {ts : List Token} {e r : Expr}, Derives l ts e r →
    Denoting ts → ∀ n ∈ e.nodes, n.Lawful
  | _, _, _, _, .assign target _ value, denoting => by
    obtain ⟨before, after⟩ := denoting_append.mp denoting
    rw [Expr.nodes, List.forall_mem_cons]
    exact ⟨target.isName before, value.lawful (denoting_cons.mp after).2⟩
  | _, _, _, _, .compare left _ _ right, denoting | _, _, _, _, .add left _ _ right, denoting
  | _, _, _, _, .multiply left _ _ right, denoting => by
    obtain ⟨before, after⟩ := denoting_append.mp denoting
    rw [Expr.nodes, List.forall_mem_cons, List.forall_mem_append]
    exact ⟨trivial, left.lawful before, right.lawful (denoting_cons.mp after).2⟩
  | _, _, _, _, .ofComparison inner, denoting | _, _, _, _, .ofSum inner, denoting
  | _, _, _, _, .ofProduct inner, denoting | _, _, _, _, .ofPrefixed inner, denoting
  | _, _, _, _, .ofCall inner, denoting | _, _, _, _, .ofPrimary inner, denoting => inner.lawful denoting
  | _, _, _, _, .lead _ operand, denoting => by
    rw [Expr.nodes, List.forall_mem_cons]
    exact ⟨trivial, operand.lawful (denoting_cons.mp denoting).2⟩
  | _, _, _, _, .call callee callable _ arguments, denoting => by
    obtain ⟨before, after⟩ := denoting_append.mp denoting
    rw [Expr.nodes, List.forall_mem_cons, List.forall_mem_append]
    exact ⟨callable, callee.lawful before, arguments.lawful (denoting_cons.mp after).2⟩
  | _, _, _, _, .number kind read, denoting => by
    rw [Expr.nodes, List.forall_mem_singleton]
    exact nearest_of_kind kind (denoting_cons.mp denoting).1 read
  | _, _, _, _, .boolean _ _, _ | _, _, _, _, .string _, _ => by
    rw [Expr.nodes, List.forall_mem_singleton]
    trivial
  | _, _, _, _, .identifier kind, denoting => by
    rw [Expr.nodes, List.forall_mem_singleton]
    exact isName_of_kind kind (denoting_cons.mp denoting).1
  | _, _, _, _, .group _ inner _, denoting =>
    Expr.all_lawful_withSpan (inner.lawful (denoting_append.mp (denoting_cons.mp denoting).2).1) _
  | _, _, _, _, .function _ _ parameters body, denoting => by
    obtain ⟨before, after⟩ := denoting_append.mp (denoting_cons.mp (denoting_cons.mp denoting).2).2
    rw [Expr.nodes, List.forall_mem_cons]
    exact ⟨parameters.isName before, body.lawful after⟩
  | _, _, _, _, .list _ elements, denoting => by
    rw [Expr.nodes, List.forall_mem_cons]
    exact ⟨trivial, elements.lawful (denoting_cons.mp denoting).2⟩
  | _, _, _, _, .table _ _ entries, denoting => by
    rw [Expr.nodes, List.forall_mem_cons]
    exact ⟨trivial, entries.lawful (denoting_cons.mp (denoting_cons.mp denoting).2).2⟩
theorem Elements.lawful : ∀ {close : Mark} {ts : List Token} {es : List Expr} {s : Span},
    Elements close ts es s → Denoting ts → ∀ n ∈ Expr.nodesAll es, n.Lawful
  | _, _, _, _, .none _, _ => by simp [Expr.nodesAll]
  | _, _, _, _, .some items, denoting => items.lawful denoting
theorem Items.lawful : ∀ {close : Mark} {ts : List Token} {es : List Expr} {s : Span},
    Items close ts es s → Denoting ts → ∀ n ∈ Expr.nodesAll es, n.Lawful
  | _, _, _, _, .last first _, denoting => by
    rw [Expr.nodesAll, Expr.nodesAll, List.append_nil]
    exact first.lawful (denoting_append.mp denoting).1
  | _, _, _, _, .more first _ rest, denoting => by
    obtain ⟨before, after⟩ := denoting_append.mp denoting
    rw [Expr.nodesAll, List.forall_mem_append]
    exact ⟨first.lawful before, rest.lawful (denoting_cons.mp after).2⟩
theorem Entries.lawful : ∀ {ts : List Token} {es : List (Expr × Expr)} {s : Span},
    Entries ts es s → Denoting ts → ∀ n ∈ Expr.nodesEntries es, n.Lawful
  | _, _, _, .none _, _ => by simp [Expr.nodesEntries]
  | _, _, _, .some pairs, denoting => pairs.lawful denoting
theorem Pairs.lawful : ∀ {ts : List Token} {es : List (Expr × Expr)} {s : Span},
    Pairs ts es s → Denoting ts → ∀ n ∈ Expr.nodesEntries es, n.Lawful
  | _, _, _, .last key _ value _, denoting => by
    obtain ⟨before, after⟩ := denoting_append.mp denoting
    obtain ⟨between, _⟩ := denoting_append.mp (denoting_cons.mp after).2
    rw [Expr.nodesEntries, Expr.nodesEntries, List.append_nil, List.forall_mem_append]
    exact ⟨key.lawful before, value.lawful between⟩
  | _, _, _, .more key _ value _ rest, denoting => by
    obtain ⟨before, after⟩ := denoting_append.mp denoting
    obtain ⟨between, behind⟩ := denoting_append.mp (denoting_cons.mp after).2
    rw [Expr.nodesEntries, List.forall_mem_append, List.forall_mem_append]
    exact ⟨⟨key.lawful before, value.lawful between⟩, rest.lawful (denoting_cons.mp behind).2⟩
theorem OfBlock.lawful : ∀ {ts : List Token} {b : Block}, OfBlock ts b → Denoting ts →
    ∀ n ∈ b.nodes, n.Lawful
  | _, _, .mk _ statements _, denoting =>
    statements.lawful (denoting_append.mp (denoting_cons.mp denoting).2).1
theorem Bare.lawful : ∀ {ts : List Token} {a : Statement} {o : Option Expr}, Bare ts a o →
    Denoting ts → ∀ n ∈ a.nodes, n.Lawful
  | _, _, _, .branch _ predicate block, denoting => by
    obtain ⟨before, after⟩ := denoting_append.mp (denoting_cons.mp denoting).2
    rw [Statement.nodes, List.forall_mem_append]
    exact ⟨predicate.lawful before, block.lawful after⟩
  | _, _, _, .branchElse _ predicate block _ other, denoting => by
    obtain ⟨before, after⟩ := denoting_append.mp (denoting_cons.mp denoting).2
    obtain ⟨between, behind⟩ := denoting_append.mp after
    rw [Statement.nodes, List.forall_mem_append, List.forall_mem_append]
    exact ⟨⟨predicate.lawful before, block.lawful between⟩, other.lawful (denoting_cons.mp behind).2⟩
  | _, _, _, .giveBack _ value, denoting => value.lawful (denoting_cons.mp denoting).2
  | _, _, _, .expression value, denoting => value.lawful denoting
theorem Closing.lawful : ∀ {ts : List Token} {a : Statement} {o : Option Expr}, Closing ts a o →
    Denoting ts → ∀ n ∈ a.nodes, n.Lawful
  | _, _, _, .closed bare _, denoting => bare.lawful (denoting_append.mp denoting).1
  | _, _, _, .bare bare, denoting => bare.lawful denoting
theorem Statements.lawful : ∀ {ts : List Token} {as : List Statement}, Statements ts as →
    Denoting ts → ∀ n ∈ Statement.nodesAll as, n.Lawful
  | _, _, .nil, _ => by simp [Statement.nodesAll]
  | _, _, .cons first rest _, denoting => by
    obtain ⟨before, after⟩ := denoting_append.mp denoting
    rw [Statement.nodesAll, List.forall_mem_append]
    exact ⟨first.lawful before, rest.lawful after⟩
end

end Grammar

/-- Every node of a program that a text is keeps its law. -/
theorem Program.lawful_of_ofSource {source : String} {p : Program} (read : ofSource source = .ok p) :
    ∀ n ∈ p.nodes, n.Lawful :=
  ((ofTokens_iff_derives (kind_ne_finish_of_scan source) p).mp read).1.lawful (Token.denotes_scan source)

end KoreanScript
