import KoreanScript.Evaluation
import KoreanScript.Tree.Parse

/-!
Sessions: texts run one after the other over the same variables. What a text
binds stays, also where it fails afterwards.
-/
namespace KoreanScript

/-- What a session keeps between texts. -/
structure Session where
  store : Store

/-- What running a text gives: a value or an error, the lines written, and the session
    that goes on. -/
structure Execution where
  result : Except Error Value
  output : List String
  session : Session

/-- How deep calls may nest. -/
def callDepth : Nat := 10000000

namespace Session

/-- The frame of the variables outside all functions and blocks. -/
def globals : FrameId := 0
/-- A session in which nothing is bound. -/
def initial : Session := ⟨Store.initial.push ⟨[], none⟩⟩
/-- What an evaluation gives when it runs in a session. -/
def observe (s : Session) (x : Eval Value) : Option Execution :=
  match x s.store.silence with
  | .done v t => some ⟨.ok v, t.output.toList, ⟨t⟩⟩
  | .failed e t => some ⟨.error (.eval e), t.output.toList, ⟨t⟩⟩
  | .tooDeep => none
/-- Runs a text. There is no answer only if calls nest too deep. -/
def execute (depth : Nat) (s : Session) (source : String) : Option Execution :=
  match Program.ofSource source with
  | .error e => some ⟨.error (.parse e), [], s⟩
  | .ok p => s.observe (p.eval depth globals)

end Session
end KoreanScript
