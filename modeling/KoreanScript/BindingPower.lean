import KoreanScript.Token

/-!
How tightly operators bind. An operator takes an expression on its left if its
left power exceeds the right power of what stands before that expression. A
level whose right power is lower than its left one associates to the right, any
other to the left.
-/
namespace KoreanScript

/-- How tightly an operator binds to the left and to the right. -/
structure BindingPower where
  left : Nat
  right : Nat
deriving DecidableEq

namespace BindingPower

/-- The power of whatever is no operator, and of the start of an expression. -/
def lowest : BindingPower := ⟨0, 1⟩
def assignment : BindingPower := ⟨31, 30⟩
def comparison : BindingPower := ⟨41, 40⟩
def summative : BindingPower := ⟨50, 51⟩
def productive : BindingPower := ⟨60, 61⟩
/-- The power of the operators that stand before an operand. -/
def leading : BindingPower := ⟨70, 71⟩
def call : BindingPower := ⟨80, 81⟩

/-- The lexemes that go on with an expression. -/
def table : List (String × BindingPower) :=
  [("=", assignment),
   ("==", comparison), ("!=", comparison), ("<", comparison), (">", comparison),
   ("<=", comparison), (">=", comparison),
   ("+", summative), ("-", summative), ("*", productive), ("/", productive),
   ("(", call)]
/-- The power of a lexeme behind a complete expression. -/
def ofLexeme (s : String) : BindingPower := (table.lookup s).getD lowest
/-- The power of a token behind a complete expression: only operators and group
    delimiters go on with one. -/
def ofToken (t : Token) : BindingPower :=
  if t.kind = .operator ∨ t.kind = .groupDelimiter then ofLexeme t.value else lowest

end BindingPower
end KoreanScript
