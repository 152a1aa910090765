import KoreanScript.Builtin
import KoreanScript.ParseError

/-!
Why an evaluation fails. Every error says what was found, what was wanted in its
place and where in the program that was.
-/
namespace KoreanScript

/-- What was wrong. -/
inductive EvalError.Cause where
  /-- A return that no call encloses, with the text of its value. -/
  | topLevelReturn (value : String)
  /-- A branch on what is no truth value. -/
  | predicate (found : ValueKind)
  | unbound (name : String)
  | operand (found : ValueKind) (accepted : List ValueKind)
  /-- A call of what is no function. -/
  | callTarget (found : ValueKind)
  /-- Arguments that a builtin refuses. -/
  | builtin (b : Builtin) (refusal : Builtin.Refusal)
  /-- What a table literal gives as a key and cannot be one. -/
  | tableKey (found : String)

structure EvalError where
  cause : EvalError.Cause
  span : Span

namespace Builtin.Refusal

def received : Refusal → String
  | count n _ => toString n ++ " arguments"
  | kind k _ | indexKind k => k.name
  | index x _ => "index " ++ Number.text x
  | missingKey k => "missing key `" ++ k ++ "`"
  | key s => s
/-- What is wanted instead, without the builtin that wants it. -/
def wanted : Refusal → String
  | count _ ns => " or ".intercalate (ns.map toString) ++ " arguments"
  | kind _ ks => ValueKind.choice ks
  | indexKind _ => "number index"
  | index _ n => "whole index below " ++ toString n
  | missingKey _ => "existing key"
  | key _ => "non-NaN number, string or boolean key"

end Builtin.Refusal

namespace EvalError.Cause

def received : Cause → String
  | topLevelReturn v => Word.giveBack ++ " " ++ v
  | predicate k | operand k _ | callTarget k => k.name
  | unbound s | tableKey s => s
  | builtin _ r => r.received
def expected : Cause → String
  | topLevelReturn _ => "enclosing function call"
  | predicate _ => "boolean"
  | unbound _ => "bound identifier"
  | operand _ ks => ValueKind.choice ks
  | callTarget _ => "function"
  | builtin b r => r.wanted ++ " for `" ++ b.name ++ "`"
  | tableKey _ => "non-NaN number, string or boolean"
/-- What the error is about. -/
def title : Cause → String
  | topLevelReturn _ => "return outside of a function"
  | predicate _ => "bad predicate"
  | unbound _ => "unbound identifier"
  | operand _ _ => "bad operand"
  | callTarget _ => "bad call target"
  | builtin _ (.key _) | tableKey _ => "bad table key"
  | builtin _ _ => "bad builtin argument"
/-- What was found as messages show it: a text of the program stands in quotes. -/
def shown : Cause → String
  | topLevelReturn v => "`" ++ (topLevelReturn v).received ++ "`"
  | unbound s => "`" ++ s ++ "`"
  | c => c.received

end EvalError.Cause

def EvalError.message (e : EvalError) : String :=
  e.cause.title ++ " at " ++ e.span.render ++ ": expected " ++ e.cause.expected ++
    ", received " ++ e.cause.shown

/-- Why running a text fails: it is no program, or evaluating the program fails. -/
inductive Error where
  | parse (e : ParseError)
  | eval (e : EvalError)

namespace Error

/-- The message of the failing stage alone. -/
def inner : Error → String
  | parse e => e.message
  | eval e => e.message
/-- The message together with the stage that failed. -/
def message : Error → String
  | parse e => "syntax error: " ++ e.message
  | eval e => "evaluation error: " ++ e.message
/-- The message and, behind it, its cause. -/
def chain (e : Error) : String := e.message ++ ": " ++ e.inner

end Error
end KoreanScript
