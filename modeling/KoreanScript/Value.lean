import KoreanScript.Entries
import KoreanScript.Tree.Render

/-!
The values of the language, the equality by which tables find their keys, and
the text of a value. Two functions are equal only if one evaluation of one
literal made both; numbers compare as IEEE doubles, so the undefined number
differs from itself.
-/
namespace KoreanScript

/-- Names a frame of variables. -/
abbrev FrameId := Nat

/-- A function: its literal, the frame that the literal was evaluated in, and a mark
    that no other evaluation of a literal shares. -/
structure Closure where
  mark : Nat
  parameters : List Identifier
  body : Block
  scope : FrameId

inductive Value where
  | number (x : Float)
  | string (s : String)
  | boolean (b : Bool)
  | function (f : Closure)
  /-- The value of a statement list without statements and of whatever has no value. -/
  | empty
  | list (elements : List Value)
  | table (entries : List (Value × Value))

/-- The values of a table's keys, in the order of first insertion. -/
abbrev Table := List (Value × Value)

/-- The kinds of values. -/
inductive ValueKind where
  | number | string | boolean | function | empty | list | table
deriving DecidableEq

namespace ValueKind

def name : ValueKind → String
  | number => "number"
  | string => "string"
  | boolean => "boolean"
  | function => "function"
  | empty => "empty"
  | list => "list"
  | table => "table"
/-- The names of some kinds as alternatives. -/
def choice : List ValueKind → String
  | [] => ""
  | [k] => k.name
  | [k, l] => k.name ++ " or " ++ l.name
  | k :: ks => k.name ++ ", " ++ choice ks

end ValueKind

mutual
/-- Equality of values. -/
def Value.same : Value → Value → Bool
  | .number x, .number y => x == y
  | .string s, .string t => s == t
  | .boolean b, .boolean c => b == c
  | .function f, .function g => f.mark == g.mark
  | .empty, .empty => true
  | .list vs, .list ws => Value.sameAll vs ws
  | .table es, .table fs => Value.sameEntries es fs
  | _, _ => false
def Value.sameAll : List Value → List Value → Bool
  | [], [] => true
  | v :: vs, w :: ws => Value.same v w && Value.sameAll vs ws
  | _, _ => false
def Value.sameEntries : List (Value × Value) → List (Value × Value) → Bool
  | [], [] => true
  | (k, v) :: es, (l, w) :: fs => Value.same k l && Value.same v w && Value.sameEntries es fs
  | _, _ => false
end

instance : BEq Value := ⟨Value.same⟩

def Closure.render (f : Closure) : String := (Expr.function f.parameters f.body f.body.span).render

mutual
/-- The text of a value. -/
def Value.render : Value → String
  | .number x => Number.render x
  | .string s => s
  | .boolean b => Word.ofBool b
  | .function f => f.render
  | .empty => ""
  | .list vs => "[" ++ ", ".intercalate (Value.renderAll vs) ++ "]"
  | .table es => "[" ++ Mark.tableMarker.lexeme ++ ", ".intercalate (Value.renderEntries es) ++ "]"
def Value.renderAll : List Value → List String
  | [] => []
  | v :: vs => v.render :: Value.renderAll vs
def Value.renderEntries : List (Value × Value) → List String
  | [] => []
  | (k, v) :: es => (k.render ++ ": " ++ v.render) :: Value.renderEntries es
end

namespace Value

def kind : Value → ValueKind
  | number _ => .number
  | string _ => .string
  | boolean _ => .boolean
  | function _ => .function
  | empty => .empty
  | list _ => .list
  | table _ => .table
/-- Whether the value may be a key: the undefined number could not be found again. -/
def isKey : Value → Bool
  | number x => !x.isNaN
  | string _ | boolean _ => true
  | _ => false
/-- The kind of a value that is refused as a key; the undefined number by its own name. -/
def describe (v : Value) : String :=
  match v with
  | number x => if x.isNaN then v.render else v.kind.name
  | _ => v.kind.name

end Value
end KoreanScript
