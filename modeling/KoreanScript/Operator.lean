/-!
The operators of expressions and their lexemes.
-/
namespace KoreanScript

/-- The operators that stand before one operand. -/
inductive PrefixOperator where
  | plus | minus | bang
deriving DecidableEq

namespace PrefixOperator

def all : List PrefixOperator := [plus, minus, bang]
def lexeme : PrefixOperator → String
  | plus => "+"
  | minus => "-"
  | bang => "!"
/-- The operator that a lexeme denotes before an operand. -/
def ofLexeme? (s : String) : Option PrefixOperator := all.find? (·.lexeme == s)
theorem ofLexeme?_lexeme (op : PrefixOperator) : ofLexeme? op.lexeme = some op := by
  cases op <;> decide

end PrefixOperator

/-- The operators that stand between two operands. -/
inductive InfixOperator where
  | plus | minus | times | divided
  | equal | unequal | less | greater | atMost | atLeast
deriving DecidableEq

namespace InfixOperator

def all : List InfixOperator :=
  [plus, minus, times, divided, equal, unequal, less, greater, atMost, atLeast]
def lexeme : InfixOperator → String
  | plus => "+"
  | minus => "-"
  | times => "*"
  | divided => "/"
  | equal => "=="
  | unequal => "!="
  | less => "<"
  | greater => ">"
  | atMost => "<="
  | atLeast => ">="
/-- The operator that a lexeme denotes between operands. -/
def ofLexeme? (s : String) : Option InfixOperator := all.find? (·.lexeme == s)
theorem ofLexeme?_lexeme (op : InfixOperator) : ofLexeme? op.lexeme = some op := by
  cases op <;> decide

end InfixOperator
end KoreanScript
