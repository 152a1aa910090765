import KoreanScript.Evaluation

/-!
What all evaluations have because their steps have it. An evaluation looks names up, binds
them, makes frames and functions, writes lines and fails; nothing else reads or changes the
store. A property that each of these steps has, and that what is made of such steps has, too,
is one of every evaluation.
-/
namespace KoreanScript

/-- A property of evaluations in a frame that all steps have and that carries over to what is made of
    them. A return that no call encloses is no failure of a step: only a program finds it. -/
structure Eval.Stepwise where
  holds : ∀ {α : Type}, FrameId → Eval α → Prop
  pure {α : Type} (f : FrameId) (a : α) : holds f (Pure.pure a : Eval α)
  fail {α : Type} (f : FrameId) {cause : EvalError.Cause} (span : Span) :
    (∀ v, cause ≠ .topLevelReturn v) → holds f (Eval.fail cause span : Eval α)
  tooDeep {α : Type} (f : FrameId) : holds f (Eval.tooDeep : Eval α)
  lookup (f : FrameId) (i : Identifier) : holds f (Eval.lookup f i)
  assign (f : FrameId) (name : String) (v : Value) : holds f (Eval.assign f name v)
  close (f : FrameId) (is : List Identifier) (b : Block) : holds f (Eval.close is b f)
  write (f : FrameId) (line : String) : holds f (Eval.write line)
  bind {α β : Type} {f : FrameId} {x : Eval α} {k : α → Eval β} :
    holds f x → (∀ a, holds f (k a)) → holds f (x >>= k)
  /-- What makes a frame and goes on in it, may stand in any frame. -/
  activate {β : Type} (f : FrameId) (frame : Frame) {k : FrameId → Eval β} :
    (∀ g, holds g (k g)) → holds f (Eval.enter frame >>= k)

namespace Eval.Stepwise
variable (P : Eval.Stepwise)

theorem builtin (f : FrameId) (b : Builtin) (vs : List Value) (span : Span) : P.holds f (b.apply vs span) := by
  unfold Builtin.apply
  cases b.line? vs with
  | some line =>
    refine P.bind (P.write f line) fun _ => ?_
    cases b.answer vs with
    | ok v => exact P.pure f v
    | error r => exact P.fail f span (by simp)
  | none =>
    cases b.answer vs with
    | ok v => exact P.pure f v
    | error r => exact P.fail f span (by simp)

/-- Calls have the property, wherever they stand. -/
def Calls (call : Closure → List Value → Eval Value) : Prop := ∀ f c vs, P.holds f (call c vs)

section
variable {call : Closure → List Value → Eval Value}

mutual
theorem expr (calls : P.Calls call) (f : FrameId) : ∀ e : Expr, P.holds f (e.eval call f)
  | .identifier i => by
    rw [Expr.eval]
    exact P.lookup f i
  | .number _ _ | .boolean _ _ | .string _ _ => by
    rw [Expr.eval]
    exact P.pure f _
  | .prefixed op e _ => by
    rw [Expr.eval]
    refine P.bind (expr calls f e) fun v => ?_
    cases op.compute? v with
    | some w => exact P.pure f w
    | none => exact P.fail f _ (by simp)
  | .binary op l r _ => by
    rw [Expr.eval]
    refine P.bind (expr calls f l) fun v => P.bind (expr calls f r) fun w => ?_
    cases op.apply v w with
    | ok u => exact P.pure f u
    | error m => exact P.fail f _ (by simp)
  | .function is b _ => by
    rw [Expr.eval]
    exact P.close f is b
  | .call c es span => by
    rw [Expr.eval]
    cases c.builtin? with
    | some b => exact P.bind (exprAll calls f es) fun vs => P.builtin f b vs span
    | none =>
      refine P.bind (expr calls f c) fun v => P.bind (exprAll calls f es) fun vs => ?_
      cases v with
      | function g => exact calls f g vs
      | _ => exact P.fail f _ (by simp)
  | .assignment i e _ => by
    rw [Expr.eval]
    exact P.bind (expr calls f e) fun v => P.bind (P.assign f i.name v) fun _ => P.pure f v
  | .list es _ => by
    rw [Expr.eval]
    exact P.bind (exprAll calls f es) fun vs => P.pure f _
  | .table es _ => by
    rw [Expr.eval]
    exact P.bind (entries calls f [] es) fun table => P.pure f _
theorem exprAll (calls : P.Calls call) (f : FrameId) : ∀ es : List Expr, P.holds f (Expr.evalAll call f es)
  | [] => by
    rw [Expr.evalAll]
    exact P.pure f []
  | e :: es => by
    rw [Expr.evalAll]
    exact P.bind (expr calls f e) fun v => P.bind (exprAll calls f es) fun vs => P.pure f _
theorem entries (calls : P.Calls call) (f : FrameId) : ∀ (table : Table) (es : List (Expr × Expr)),
    P.holds f (Expr.evalEntries call f table es)
  | table, [] => by
    rw [Expr.evalEntries]
    exact P.pure f table
  | table, (k, e) :: es => by
    rw [Expr.evalEntries]
    refine P.bind (expr calls f k) fun key => ?_
    split
    · exact P.bind (expr calls f e) fun v => entries calls f _ es
    · exact P.fail f _ (by simp)
theorem statement (calls : P.Calls call) (f : FrameId) : ∀ a : Statement, P.holds f (a.eval call f)
  | .branch e b c _ => by
    rw [Statement.eval]
    refine P.bind (expr calls f e) fun v => ?_
    split
    · exact block calls f f b
    · exact blockOption calls f f c
    · exact P.fail f _ (by simp)
  | .giveBack e span => by
    rw [Statement.eval]
    exact P.bind (expr calls f e) fun v => P.pure f _
  | .expression e => by
    rw [Statement.eval]
    exact P.bind (expr calls f e) fun v => P.pure f _
theorem statementAll (calls : P.Calls call) (f : FrameId) : ∀ (last : Value) (as : List Statement),
    P.holds f (Statement.evalAll call f last as)
  | last, [] => by
    rw [Statement.evalAll]
    exact P.pure f _
  | last, a :: as => by
    rw [Statement.evalAll]
    refine P.bind (statement calls f a) fun signal => ?_
    cases signal with
    | value v => exact statementAll calls f v as
    | giveBack v span => exact P.pure f _
/-- A block runs in a frame of its own, wherever it stands. -/
theorem block (calls : P.Calls call) (f g : FrameId) : ∀ b : Block, P.holds g (b.eval call f)
  | ⟨as, _⟩ => by
    rw [Block.eval]
    exact P.activate g _ fun h => statementAll calls h .empty as
theorem blockOption (calls : P.Calls call) (f g : FrameId) :
    ∀ b : Option Block, P.holds g (Block.evalOption call f b)
  | none => by
    rw [Block.evalOption]
    exact P.pure g _
  | some b => by
    rw [Block.evalOption]
    exact block calls f g b
end

end

/-- The application of a function runs in a frame of its own, wherever it is called. -/
theorem application (depth : Nat) : P.Calls (Closure.apply depth) := by
  induction depth with
  | zero =>
    intro f c vs
    rw [Closure.apply]
    exact P.tooDeep f
  | succ depth ih =>
    intro f c vs
    rw [Closure.apply]
    refine P.activate f _ fun g => ?_
    exact P.bind (P.statementAll ih g .empty c.body.statements) fun _ => P.pure g _

end Eval.Stepwise
end KoreanScript
