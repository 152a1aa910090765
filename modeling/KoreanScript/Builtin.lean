import KoreanScript.Value

/-!
The functions that every program has. They are found by name wherever a call
names one directly, whatever a program binds that name to.
-/
namespace KoreanScript

inductive Builtin where
  | length | insert | remove | find | write
deriving DecidableEq

namespace Builtin

def all : List Builtin := [length, insert, remove, find, write]
def name : Builtin → String
  | length => "길이"
  | insert => "넣기"
  | remove => "빼기"
  | find => "찾기"
  | write => "쓰기"
/-- The builtin of a name. -/
def ofName? (s : String) : Option Builtin := all.find? (·.name == s)
theorem ofName?_name (b : Builtin) : ofName? b.name = some b := by cases b <;> decide
/-- How many arguments a builtin takes; the one that writes takes any number. -/
def counts : Builtin → List Nat
  | length => [1]
  | insert => [2, 3]
  | remove | find => [2]
  | write => []

/-- Why a builtin refuses its arguments. -/
inductive Refusal where
  | count (got : Nat) (allowed : List Nat)
  | kind (found : ValueKind) (accepted : List ValueKind)
  /-- An index that is no number. -/
  | indexKind (found : ValueKind)
  /-- A number that is no whole index below the bound. -/
  | index (x : Float) (bound : Nat)
  /-- The text of a key that the table lacks. -/
  | missingKey (key : String)
  /-- What was given as a key and cannot be one. -/
  | key (found : String)

/-- The index below `bound` that a value stands for. -/
def index (bound : Nat) : Value → Except Refusal (Fin bound)
  | .number x =>
    match Number.natural? x with
    | some n => if h : n < bound then .ok ⟨n, h⟩ else .error (.index x bound)
    | none => .error (.index x bound)
  | v => .error (.indexKind v.kind)
/-- Refuses a value that cannot be a key. -/
def checkKey (k : Value) : Except Refusal Unit := if k.isKey then .ok () else .error (.key k.describe)

/-- The value of a builtin. A count of arguments that it never takes is refused before
    their kinds are looked at. -/
def answer : Builtin → List Value → Except Refusal Value
  | length, [.string s] => .ok (.number (Number.ofNat s.length))
  | length, [.list vs] => .ok (.number (Number.ofNat vs.length))
  | length, [.table es] => .ok (.number (Number.ofNat es.length))
  | length, [v] => .error (.kind v.kind [.string, .list, .table])
  | insert, [.list vs, v] => .ok (.list (vs ++ [v]))
  | insert, [.list vs, i, v] => do
    let n ← index (vs.length + 1) i
    .ok (.list (vs.insertIdx n v))
  | insert, [.table es, k, v] => do
    checkKey k
    .ok (.table (Entries.insert k v es))
  | insert, [.table _, _] => .error (.count 2 [3])
  | insert, [v, _] | insert, [v, _, _] => .error (.kind v.kind [.list, .table])
  | remove, [.list vs, i] => do
    let n ← index vs.length i
    .ok (.list (vs.eraseIdx n))
  | remove, [.table es, k] => do
    checkKey k
    match Entries.remove k es with
    | (some _, rest) => .ok (.table rest)
    | (none, _) => .error (.missingKey k.render)
  | remove, [v, _] => .error (.kind v.kind [.list, .table])
  | find, [.list vs, i] => do
    let n ← index vs.length i
    .ok vs[n]
  | find, [.table es, k] => do
    checkKey k
    match Entries.get? k es with
    | some v => .ok v
    | none => .error (.missingKey k.render)
  | find, [v, _] => .error (.kind v.kind [.list, .table])
  | write, _ => .ok .empty
  | b, vs => .error (.count vs.length b.counts)

section
variable (vs : List Value) (es : Table) (i k v : Value)

theorem answer_countElements : answer length [.list vs] = .ok (.number (Number.ofNat vs.length)) := rfl
theorem answer_countEntries : answer length [.table es] = .ok (.number (Number.ofNat es.length)) := rfl
theorem answer_insertAt : answer insert [.list vs, i, v] = (do
    let n ← index (vs.length + 1) i
    .ok (.list (vs.insertIdx n v))) := rfl
theorem answer_removeAt : answer remove [.list vs, i] = (do
    let n ← index vs.length i
    .ok (.list (vs.eraseIdx n))) := rfl
theorem answer_findAt : answer find [.list vs, i] = (do
    let n ← index vs.length i
    .ok (vs.get n)) := rfl
theorem answer_insertKey : answer insert [.table es, k, v] = (do
    checkKey k
    .ok (.table (Entries.insert k v es))) := rfl
theorem answer_removeKey : answer remove [.table es, k] = (do
    checkKey k
    match Entries.get? k es with
    | some _ => .ok (.table (Entries.erase k es))
    | none => .error (.missingKey k.render)) := by
  rw [answer, Entries.remove_eq]
  cases Entries.get? k es <;> rfl
theorem answer_findKey : answer find [.table es, k] = (do
    checkKey k
    match Entries.get? k es with
    | some v => .ok v
    | none => .error (.missingKey k.render)) := rfl

end

/-- The line that a builtin writes. -/
def line? : Builtin → List Value → Option String
  | write, vs => some (" ".intercalate (vs.map Value.render))
  | _, _ => none

end Builtin
end KoreanScript
