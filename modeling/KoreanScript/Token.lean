import KoreanScript.Position

/-!
Tokens, the words that the language reserves, and the delimiters that its
constructs require.
-/
namespace KoreanScript

/-- What a token is. -/
inductive TokenKind where
  | operator | identifier | keyword | number | boolean | string
  | groupDelimiter | blockDelimiter | listDelimiter | separator
  | illegal | illegalString | finish
deriving DecidableEq

namespace TokenKind

/-- The name that messages use. -/
def name : TokenKind → String
  | operator => "operator"
  | identifier => "identifier"
  | keyword => "keyword"
  | number => "number"
  | boolean => "boolean"
  | string => "string"
  | groupDelimiter => "group delimiter"
  | blockDelimiter => "block delimiter"
  | listDelimiter => "list delimiter"
  | separator => "separator"
  | illegal => "illegal"
  | illegalString => "illegal string"
  | finish => "end"
/-- Every kind, in the order of their definition. -/
def all : List TokenKind :=
  [operator, identifier, keyword, number, boolean, string, groupDelimiter, blockDelimiter,
   listDelimiter, separator, illegal, illegalString, finish]

end TokenKind

namespace Word

/-- Begins a function literal. -/
def function : String := "함수"
/-- Begins a branch. -/
def branch : String := "만약"
/-- Stands between the two blocks of a branch. -/
def otherwise : String := "아니면"
/-- Begins a return. -/
def giveBack : String := "리턴"
def truth : String := "참"
def falsity : String := "거짓"
def keywords : List String := [function, branch, otherwise, giveBack]
def booleans : List String := [truth, falsity]
/-- The word for a truth value. -/
def ofBool (b : Bool) : String := if b then truth else falsity
/-- The truth value that a word stands for. -/
def toBool? (s : String) : Option Bool :=
  if s = truth then some true else if s = falsity then some false else none
theorem toBool?_ofBool (b : Bool) : toBool? (ofBool b) = some b := by cases b <;> decide

end Word

/-- A token: its kind, its text without the quotes of a string, and where it stands. -/
structure Token where
  kind : TokenKind
  value : String
  span : Span
deriving DecidableEq

/-- A lexeme of one kind, which some construct requires at some place. -/
structure Mark where
  kind : TokenKind
  lexeme : String
deriving DecidableEq

namespace Mark

def openGroup : Mark := ⟨.groupDelimiter, "("⟩
def closeGroup : Mark := ⟨.groupDelimiter, ")"⟩
def openBlock : Mark := ⟨.blockDelimiter, "\x7b"⟩
def closeBlock : Mark := ⟨.blockDelimiter, "\x7d"⟩
def openList : Mark := ⟨.listDelimiter, "["⟩
def closeList : Mark := ⟨.listDelimiter, "]"⟩
/-- Makes a table of the list that it opens. -/
def tableMarker : Mark := ⟨.listDelimiter, "!"⟩
def comma : Mark := ⟨.separator, ","⟩
def colon : Mark := ⟨.separator, ":"⟩
def semicolon : Mark := ⟨.separator, ";"⟩
def assignment : Mark := ⟨.operator, "="⟩
def function : Mark := ⟨.keyword, Word.function⟩
def branch : Mark := ⟨.keyword, Word.branch⟩
def otherwise : Mark := ⟨.keyword, Word.otherwise⟩
def giveBack : Mark := ⟨.keyword, Word.giveBack⟩

end Mark

namespace Token

/-- The token that stands for the end of a text. -/
def finish (span : Span) : Token := ⟨.finish, "", span⟩
/-- Whether a token is the lexeme that a mark requires. -/
def is (t : Token) (m : Mark) : Bool := t.kind == m.kind && t.value == m.lexeme
/-- The text of a token in messages. -/
def display (t : Token) : String := if t.kind = .finish then "end of input" else t.value

end Token
end KoreanScript
