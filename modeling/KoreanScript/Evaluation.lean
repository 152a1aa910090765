import KoreanScript.EvalError
import KoreanScript.Operation
import KoreanScript.Store

/-!
The meaning of programs. Evaluation goes down the syntax tree; only applying a
function leads to another tree, so that is a parameter (`call`) of everything
else, and `Closure.apply` bounds the depth of calls instead of the length of an
evaluation. An evaluation that needs deeper calls has no outcome; one that ends
has the same outcome under every larger bound.
-/
namespace KoreanScript

/-- How an evaluation ends. A failing one keeps what it did before. -/
inductive Outcome (α : Type) where
  | done (a : α) (s : Store)
  | failed (e : EvalError) (s : Store)
  /-- Calls nest deeper than the bound. -/
  | tooDeep

/-- An evaluation that gives an `α`. -/
def Eval (α : Type) := Store → Outcome α

namespace Eval
variable {α β : Type}

def pure (a : α) : Eval α := fun s => .done a s
def bind (x : Eval α) (f : α → Eval β) : Eval β := fun s =>
  match x s with
  | .done a s => f a s
  | .failed e s => .failed e s
  | .tooDeep => .tooDeep

instance : Monad Eval where
  pure := pure
  bind := bind

theorem pure_apply (a : α) (s : Store) : (Pure.pure a : Eval α) s = .done a s := rfl
theorem bind_apply (x : Eval α) (f : α → Eval β) (s : Store) :
    (x >>= f) s = match x s with
      | .done a t => f a t
      | .failed e t => .failed e t
      | .tooDeep => .tooDeep := rfl
/-- An evaluation made of two gives what the second gives in the store that the first leaves. -/
theorem bind_eq_done {x : Eval α} {f : α → Eval β} {s t : Store} {b : β} :
    (x >>= f) s = .done b t ↔ ∃ a u, x s = .done a u ∧ f a u = .done b t := by
  rw [bind_apply]
  cases x s <;> simp [and_assoc]
/-- An evaluation made of two fails where the first fails, or else the second. -/
theorem bind_eq_failed {x : Eval α} {f : α → Eval β} {s t : Store} {e : EvalError} :
    (x >>= f) s = .failed e t ↔ x s = .failed e t ∨ ∃ a u, x s = .done a u ∧ f a u = .failed e t := by
  rw [bind_apply]
  cases x s <;> simp [and_assoc]
private theorem bind_pure_eq (x : Eval α) : (x >>= Pure.pure) = x := by
  funext s
  rw [bind_apply]
  cases x s <;> rfl
private theorem bind_bind_eq {γ : Type} (x : Eval α) (f : α → Eval β) (g : β → Eval γ) :
    x >>= f >>= g = x >>= fun a => f a >>= g := by
  funext s
  simp only [bind_apply]
  cases x s <;> rfl
instance : LawfulMonad Eval := LawfulMonad.mk' Eval
  (fun x => bind_pure_eq x) (fun _ _ => rfl) bind_bind_eq

def fail (cause : EvalError.Cause) (span : Span) : Eval α := fun s => .failed ⟨cause, span⟩ s
def tooDeep : Eval α := fun _ => .tooDeep
/-- The value of a name seen from frame `f`. -/
def lookup (f : FrameId) (i : Identifier) : Eval Value := fun s =>
  match s.lookup f i.name with
  | some v => .done v s
  | none => .failed ⟨.unbound i.name, i.span⟩ s
/-- Binds a name in frame `f`. -/
def assign (f : FrameId) (name : String) (v : Value) : Eval Unit := fun s => .done () (s.bind f name v)
/-- Makes a frame. -/
def enter (frame : Frame) : Eval FrameId := fun s => .done s.next (s.push frame)
/-- Makes a function value in frame `f`. -/
def close (parameters : List Identifier) (body : Block) (f : FrameId) : Eval Value := fun s =>
  .done (.function ⟨s.functions, parameters, body, f⟩) { s with functions := s.functions + 1 }
def write (line : String) : Eval Unit := fun s => .done () (s.write line)

end Eval

/-- Runs a builtin for the call at `span`. -/
def Builtin.apply (b : Builtin) (arguments : List Value) (span : Span) : Eval Value := do
  match b.line? arguments with
  | some line => Eval.write line
  | none => pure ()
  match b.answer arguments with
  | .ok v => pure v
  | .error r => Eval.fail (.builtin b r) span

/-- How a statement ends: with a value, or with a return, which ends all statements
    up to the call around it. -/
inductive Signal where
  | value (v : Value)
  | giveBack (v : Value) (span : Span)

def Signal.result : Signal → Value
  | .value v => v
  | .giveBack v _ => v

/-- The builtin that an expression names directly. -/
def Expr.builtin? : Expr → Option Builtin
  | .identifier i => Builtin.ofName? i.name
  | _ => none

section
variable (call : Closure → List Value → Eval Value)

mutual
/-- The value of an expression in frame `f`. -/
def Expr.eval (f : FrameId) : Expr → Eval Value
  | .identifier i => Eval.lookup f i
  | .number x _ => pure (.number x)
  | .boolean b _ => pure (.boolean b)
  | .string s _ => pure (.string s)
  | .prefixed op e _ => do
    let v ← Expr.eval f e
    match op.compute? v with
    | some w => pure w
    | none => Eval.fail (.operand v.kind op.accepts) e.span
  | .binary op l r _ => do
    let v ← Expr.eval f l
    let w ← Expr.eval f r
    match op.apply v w with
    | .ok u => pure u
    | .error m =>
      Eval.fail (.operand m.found m.accepted) (match m.side with | .left => l.span | .right => r.span)
  | .function ps b _ => Eval.close ps b f
  | .call c es span =>
    match c.builtin? with
    | some b => do
      let vs ← Expr.evalAll f es
      b.apply vs span
    | none => do
      let v ← Expr.eval f c
      let vs ← Expr.evalAll f es
      match v with
      | .function g => call g vs
      | v => Eval.fail (.callTarget v.kind) c.span
  | .assignment i e _ => do
    let v ← Expr.eval f e
    Eval.assign f i.name v
    pure v
  | .list es _ => do
    let vs ← Expr.evalAll f es
    pure (.list vs)
  | .table es _ => do
    let entries ← Expr.evalEntries f [] es
    pure (.table entries)
/-- The values of expressions, from left to right. -/
def Expr.evalAll (f : FrameId) : List Expr → Eval (List Value)
  | [] => pure []
  | e :: es => do
    let v ← Expr.eval f e
    let vs ← Expr.evalAll f es
    pure (v :: vs)
/-- A table with the entries of a literal added. A key is checked before its value is
    evaluated. -/
def Expr.evalEntries (f : FrameId) (table : Table) : List (Expr × Expr) → Eval Table
  | [] => pure table
  | (k, e) :: es => do
    let key ← Expr.eval f k
    if key.isKey then do
      let v ← Expr.eval f e
      Expr.evalEntries f (Entries.insert key v table) es
    else Eval.fail (.tableKey key.describe) k.span
def Statement.eval (f : FrameId) : Statement → Eval Signal
  | .branch p b c _ => do
    let v ← Expr.eval f p
    match v with
    | .boolean true => Block.eval f b
    | .boolean false => Block.evalOption f c
    | v => Eval.fail (.predicate v.kind) p.span
  | .giveBack e span => do
    let v ← Expr.eval f e
    pure (.giveBack v span)
  | .expression e => do
    let v ← Expr.eval f e
    pure (.value v)
/-- Evaluates statements up to the first return; without one the value is that of the
    last statement, and `last` if there is none. -/
def Statement.evalAll (f : FrameId) (last : Value) : List Statement → Eval Signal
  | [] => pure (.value last)
  | s :: ss => do
    let signal ← Statement.eval f s
    match signal with
    | .value v => Statement.evalAll f v ss
    | .giveBack v span => pure (.giveBack v span)
/-- Evaluates a block in a frame of its own. -/
def Block.eval (f : FrameId) : Block → Eval Signal
  | ⟨ss, _⟩ => do
    let g ← Eval.enter ⟨[], some f⟩
    Statement.evalAll g .empty ss
def Block.evalOption (f : FrameId) : Option Block → Eval Signal
  | none => pure (.value .empty)
  | some b => Block.eval f b
end

/-- A single statement ends as it does on its own. -/
theorem Statement.evalAll_singleton (f : FrameId) (last : Value) (a : Statement) :
    Statement.evalAll call f last [a] = a.eval call f := by
  rw [evalAll]
  refine Eq.trans ?_ (bind_pure (a.eval call f))
  congr
  funext signal
  cases signal with
  | value v => simp only [evalAll]
  | giveBack v span => rfl

end

/-- The variables that a call starts with: each parameter has the argument at its place
    or, without one, the empty value; of equal parameters the last counts. -/
def bindParameters : List Identifier → List Value → List (String × Value) → List (String × Value)
  | [], _, bindings => bindings
  | p :: ps, vs, bindings =>
    bindParameters ps vs.tail (Entries.insert p.name (vs.headD .empty) bindings)
/-- The frame that the body of a function starts in. -/
def Closure.frame (c : Closure) (arguments : List Value) : Frame :=
  ⟨bindParameters c.parameters arguments [], some c.scope⟩
/-- Applies a function, with calls nested at most `depth` deep. -/
def Closure.apply : Nat → Closure → List Value → Eval Value
  | 0, _, _ => Eval.tooDeep
  | depth + 1, c, arguments => do
    let f ← Eval.enter (c.frame arguments)
    let signal ← Statement.evalAll (Closure.apply depth) f .empty c.body.statements
    pure signal.result
/-- Evaluates a program directly in frame `f`. -/
def Program.eval (depth : Nat) (f : FrameId) (p : Program) : Eval Value := do
  let signal ← Statement.evalAll (Closure.apply depth) f .empty p.statements
  match signal with
  | .value v => pure v
  | .giveBack v span => Eval.fail (.topLevelReturn v.render) span

end KoreanScript
