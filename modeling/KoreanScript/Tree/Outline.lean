import KoreanScript.Number
import KoreanScript.Tree

/-!
The nodes of a syntax tree in the order of their text, each with its depth.
-/
namespace KoreanScript

/-- What a node of the outline is. -/
inductive NodeKind where
  | program | block | branch | giveBack | identifier | number | boolean | string
  | prefixed | binary | function | parameter | call | assignment | list | table
deriving DecidableEq

/-- One node: how deep it lies, what it is, its own text and its span. -/
structure Node where
  depth : Nat
  kind : NodeKind
  label : String
  span : Span

def Identifier.node (kind : NodeKind) (depth : Nat) (i : Identifier) : Node :=
  ⟨depth, kind, i.name, i.span⟩

mutual
def Block.outline (d : Nat) : Block → List Node
  | ⟨statements, span⟩ => ⟨d, .block, "", span⟩ :: Statement.outlineAll (d + 1) statements
def Statement.outline (d : Nat) : Statement → List Node
  | .branch e b none s => ⟨d, .branch, "", s⟩ :: (e.outline (d + 1) ++ b.outline (d + 1))
  | .branch e b (some c) s =>
    ⟨d, .branch, "", s⟩ :: (e.outline (d + 1) ++ b.outline (d + 1) ++ c.outline (d + 1))
  | .giveBack e s => ⟨d, .giveBack, "", s⟩ :: e.outline (d + 1)
  | .expression e => e.outline d
def Statement.outlineAll (d : Nat) : List Statement → List Node
  | [] => []
  | s :: rest => s.outline d ++ Statement.outlineAll d rest
def Expr.outline (d : Nat) : Expr → List Node
  | .identifier i => [i.node .identifier d]
  | .number x s => [⟨d, .number, Number.text x, s⟩]
  | .boolean b s => [⟨d, .boolean, if b then "true" else "false", s⟩]
  | .string t s => [⟨d, .string, t, s⟩]
  | .prefixed op e s => ⟨d, .prefixed, op.lexeme, s⟩ :: e.outline (d + 1)
  | .binary op l r s => ⟨d, .binary, op.lexeme, s⟩ :: (l.outline (d + 1) ++ r.outline (d + 1))
  | .function ps b s =>
    ⟨d, .function, "", s⟩ :: (ps.map (Identifier.node .parameter (d + 1)) ++ b.outline (d + 1))
  | .call f es s => ⟨d, .call, "", s⟩ :: (f.outline (d + 1) ++ Expr.outlineAll (d + 1) es)
  | .assignment i e s =>
    ⟨d, .assignment, "", s⟩ :: i.node .identifier (d + 1) :: e.outline (d + 1)
  | .list es s => ⟨d, .list, "", s⟩ :: Expr.outlineAll (d + 1) es
  | .table es s => ⟨d, .table, "", s⟩ :: Expr.outlineEntries (d + 1) es
def Expr.outlineAll (d : Nat) : List Expr → List Node
  | [] => []
  | e :: rest => e.outline d ++ Expr.outlineAll d rest
def Expr.outlineEntries (d : Nat) : List (Expr × Expr) → List Node
  | [] => []
  | (k, v) :: rest => k.outline d ++ v.outline d ++ Expr.outlineEntries d rest
end

def Program.outline (p : Program) : List Node :=
  ⟨0, .program, "", p.span⟩ :: Statement.outlineAll 1 p.statements

end KoreanScript
