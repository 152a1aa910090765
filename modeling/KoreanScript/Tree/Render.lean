import KoreanScript.Number
import KoreanScript.Token
import KoreanScript.Tree

/-!
The canonical text of a syntax tree: every operator expression in parentheses,
one space between the parts of a statement, and no semicolons.
-/
namespace KoreanScript

mutual
def Block.render : Block → String
  | ⟨statements, _⟩ =>
    if statements.isEmpty then "\x7b \x7d"
    else "\x7b " ++ " ".intercalate (Statement.renderAll statements) ++ " \x7d"
def Statement.render : Statement → String
  | .branch e b none _ => Word.branch ++ " " ++ e.render ++ " " ++ b.render
  | .branch e b (some c) _ =>
    Word.branch ++ " " ++ e.render ++ " " ++ b.render ++ " " ++ Word.otherwise ++ " " ++ c.render
  | .giveBack e _ => Word.giveBack ++ " " ++ e.render
  | .expression e => e.render
def Statement.renderAll : List Statement → List String
  | [] => []
  | s :: rest => s.render :: Statement.renderAll rest
def Expr.render : Expr → String
  | .identifier i => i.name
  | .number x _ => Number.render x
  | .boolean b _ => Word.ofBool b
  | .string s _ => "'" ++ s ++ "'"
  | .prefixed op e _ => "(" ++ op.lexeme ++ e.render ++ ")"
  | .binary op l r _ => "(" ++ l.render ++ " " ++ op.lexeme ++ " " ++ r.render ++ ")"
  | .function ps b _ =>
    Word.function ++ "(" ++ ", ".intercalate (ps.map Identifier.name) ++ ") " ++ b.render
  | .call f es _ => f.render ++ "(" ++ ", ".intercalate (Expr.renderAll es) ++ ")"
  | .assignment i e _ => "(" ++ i.name ++ " = " ++ e.render ++ ")"
  | .list es _ => "[" ++ ", ".intercalate (Expr.renderAll es) ++ "]"
  | .table es _ => "[" ++ Mark.tableMarker.lexeme ++ ", ".intercalate (Expr.renderEntries es) ++ "]"
def Expr.renderAll : List Expr → List String
  | [] => []
  | e :: rest => e.render :: Expr.renderAll rest
def Expr.renderEntries : List (Expr × Expr) → List String
  | [] => []
  | (k, v) :: rest => (k.render ++ ": " ++ v.render) :: Expr.renderEntries rest
end

/-- The statements of a program, one a line. -/
def Program.render (p : Program) : String := "\n".intercalate (Statement.renderAll p.statements)

end KoreanScript
