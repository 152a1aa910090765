import KoreanScript.Operator
import KoreanScript.Position

/-!
The syntax tree. Every node carries the span of its text; an expression in
parentheses has the span of the parentheses.
-/
namespace KoreanScript

/-- A name at a place: a variable, a parameter or the target of an assignment. -/
structure Identifier where
  name : String
  span : Span
deriving DecidableEq

mutual
/-- Statements between braces. -/
structure Block where
  statements : List Statement
  span : Span
inductive Statement where
  | branch (predicate : Expr) (consequence : Block) (alternative : Option Block) (span : Span)
  | giveBack (value : Expr) (span : Span)
  | expression (e : Expr)
inductive Expr where
  | identifier (i : Identifier)
  | number (x : Float) (span : Span)
  | boolean (b : Bool) (span : Span)
  | string (s : String) (span : Span)
  | prefixed (op : PrefixOperator) (operand : Expr) (span : Span)
  | binary (op : InfixOperator) (left right : Expr) (span : Span)
  | function (parameters : List Identifier) (body : Block) (span : Span)
  | call (callee : Expr) (arguments : List Expr) (span : Span)
  | assignment (target : Identifier) (value : Expr) (span : Span)
  | list (elements : List Expr) (span : Span)
  | table (entries : List (Expr × Expr)) (span : Span)
end

namespace Expr

def span : Expr → Span
  | identifier i => i.span
  | number _ s | boolean _ s | string _ s | prefixed _ _ s | binary _ _ _ s | function _ _ s
  | call _ _ s | assignment _ _ s | list _ s | table _ s => s
/-- The same expression, said to cover `s`. -/
def withSpan (s : Span) : Expr → Expr
  | identifier i => identifier ⟨i.name, s⟩
  | number x _ => number x s
  | boolean b _ => boolean b s
  | string t _ => string t s
  | prefixed op e _ => prefixed op e s
  | binary op l r _ => binary op l r s
  | function ps b _ => function ps b s
  | call f es _ => call f es s
  | assignment i e _ => assignment i e s
  | list es _ => list es s
  | table es _ => table es s
/-- Whether an opening parenthesis behind the expression makes it a callee. -/
def isCallable : Expr → Bool
  | identifier _ | function _ _ _ | call _ _ _ => true
  | _ => false

end Expr

def Statement.span : Statement → Span
  | .branch _ _ _ s | .giveBack _ s => s
  | .expression e => e.span

/-- A whole text. The span of a program without statements is that of the text's end. -/
structure Program where
  statements : List Statement
  span : Span

end KoreanScript
