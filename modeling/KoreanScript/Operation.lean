import KoreanScript.Value

/-!
What operators do to values. An operator that cannot take its operands blames
the left one if no right operand would help, and else the right one.
-/
namespace KoreanScript

/-- One of two operands. -/
inductive Side where
  | left | right
deriving DecidableEq

/-- An operand that an operator cannot take, and the kinds that it could. -/
structure Misfit where
  side : Side
  found : ValueKind
  accepted : List ValueKind

namespace PrefixOperator

def accepts : PrefixOperator → List ValueKind
  | plus | minus => [.number]
  | bang => [.boolean]
/-- The value of an operator before an operand of an accepted kind. -/
def compute? : PrefixOperator → Value → Option Value
  | plus, .number x => some (.number x)
  | minus, .number x => some (.number (-x))
  | bang, .boolean b => some (.boolean !b)
  | _, _ => none

end PrefixOperator

/-- How two numbers compare; the undefined number compares with none. -/
def orderNumbers (x y : Float) : Option Ordering :=
  if x < y then some .lt else if x == y then some .eq else if y < x then some .gt else none
/-- How two texts compare, by code points. -/
def orderStrings (s t : String) : Ordering :=
  if s < t then .lt else if s = t then .eq else .gt

namespace InfixOperator

/-- The kinds of left operands that an operator takes. -/
def accepts : InfixOperator → List ValueKind
  | plus | minus | times | divided => [.number]
  | equal | unequal => [.number, .string, .boolean]
  | less | greater | atMost | atLeast => [.number, .string]
/-- The value of an arithmetic operator. -/
def arithmetic? : InfixOperator → Float → Float → Option Float
  | plus, x, y => some (x + y)
  | minus, x, y => some (x - y)
  | times, x, y => some (x * y)
  | divided, x, y => some (x / y)
  | _, _, _ => none
/-- Whether operands in this order satisfy a comparison. -/
def admits : InfixOperator → Ordering → Bool
  | less, o => o.isLT
  | greater, o => o.isGT
  | atMost, o => o.isLE
  | atLeast, o => o.isGE
  | _, _ => false
/-- The truth value of an operator, given whether its operands are equal and, if they
    compare at all, how. -/
def truth? (op : InfixOperator) (same : Bool) (order : Option Ordering) : Option Bool :=
  match op with
  | equal => some same
  | unequal => some !same
  | less | greater | atMost | atLeast => some (order.any op.admits)
  | plus | minus | times | divided => none
/-- The value of an operator between operands of kinds that it takes. -/
def compute? (op : InfixOperator) (l r : Value) : Option Value :=
  match l, r with
  | .number x, .number y =>
    match op.arithmetic? x y with
    | some z => some (.number z)
    | none => (op.truth? (x == y) (orderNumbers x y)).map Value.boolean
  | .string s, .string t => (op.truth? (s == t) (some (orderStrings s t))).map Value.boolean
  | .boolean b, .boolean c =>
    if op.accepts.contains .boolean then (op.truth? (b == c) none).map Value.boolean else none
  | _, _ => none
/-- The value of an operator, or the operand that it cannot take. -/
def apply (op : InfixOperator) (l r : Value) : Except Misfit Value :=
  match op.compute? l r with
  | some v => .ok v
  | none =>
    if l.kind ∈ op.accepts then .error ⟨.right, r.kind, [l.kind]⟩
    else .error ⟨.left, l.kind, op.accepts⟩

end InfixOperator
end KoreanScript
