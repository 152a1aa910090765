import KoreanScript.Token

/-!
Why a text is no program. Every error says what was found, what was wanted in
its place and where that was.
-/
namespace KoreanScript

/-- The delimiters that a construct may be missing. -/
inductive Delimiter where
  | group | block | list | separator
deriving DecidableEq

/-- What was wrong, with the texts that were found. -/
inductive ParseError.Cause where
  /-- A number token whose text is no number. -/
  | numberLiteral (text : String)
  /-- A boolean token that is neither of the two words. -/
  | booleanLiteral (text : String)
  /-- An operator that takes no operand behind it. -/
  | prefixOperator (lexeme : String)
  /-- An operator that binds but stands between no two operands. -/
  | infixOperator (lexeme : String)
  /-- A token that begins no expression. -/
  | expression (found : TokenKind)
  | delimiter (missing : Delimiter) (found wanted : String)
  /-- The text of what stands before an equals sign and is no name. -/
  | assignmentTarget (text : String)
  /-- What stands in place of a parameter. -/
  | identifier (found : String)
  /-- A keyword that begins no statement. -/
  | keyword (word : String)
deriving DecidableEq

structure ParseError where
  cause : ParseError.Cause
  span : Span
deriving DecidableEq

namespace ParseError.Cause

def received : Cause → String
  | numberLiteral s | booleanLiteral s | prefixOperator s | infixOperator s | delimiter _ s _
  | assignmentTarget s | identifier s | keyword s => s
  | expression k => k.name
def expected : Cause → String
  | numberLiteral _ => "number"
  | booleanLiteral _ => "`" ++ Word.truth ++ "` or `" ++ Word.falsity ++ "`"
  | prefixOperator _ => "`+`, `-` or `!`"
  | infixOperator _ => "infix operator"
  | expression _ => "expression"
  | delimiter _ _ s => "`" ++ s ++ "`"
  | assignmentTarget _ | identifier _ => "identifier"
  | keyword _ => "statement"
/-- What the error is about. -/
def title : Cause → String
  | numberLiteral _ => "bad number literal"
  | booleanLiteral _ => "bad boolean literal"
  | prefixOperator _ => "bad prefix operator"
  | infixOperator _ => "bad infix operator"
  | expression _ => "bad expression"
  | delimiter .group _ _ => "bad group delimiter"
  | delimiter .block _ _ => "bad block delimiter"
  | delimiter .list _ _ => "bad list delimiter"
  | delimiter .separator _ _ => "bad separator"
  | assignmentTarget _ => "bad assignment target"
  | identifier _ => "bad identifier"
  | keyword _ => "bad keyword"
/-- The found text as messages show it: in quotes, unless it is the name of a kind. -/
def shown : Cause → String
  | expression k => k.name
  | c => "`" ++ c.received ++ "`"

end ParseError.Cause

namespace ParseError

def message (e : ParseError) : String :=
  e.cause.title ++ " at " ++ e.span.render ++ ": expected " ++ e.cause.expected ++
    ", received " ++ e.cause.shown
/-- The delimiter that is reported where `found` stands in place of `wanted`: a stray
    separator is reported as such. -/
def missing (found : Token) (wanted : Mark) : Delimiter :=
  if found.kind = .separator ∨ wanted.kind = .separator then .separator
  else if wanted.kind = .groupDelimiter then .group
  else if wanted.kind = .blockDelimiter then .block
  else .list
/-- The error of finding a token in place of a delimiter. -/
def ofDelimiter (found : Token) (wanted : Mark) : ParseError :=
  ⟨.delimiter (missing found wanted) found.display wanted.lexeme, found.span⟩

end ParseError
end KoreanScript
