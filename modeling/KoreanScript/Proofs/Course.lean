import KoreanScript.Proofs.Runs

/-!
The course of an evaluation: its moments, one after the other. It is read off the
evaluations of the parts, each in the store that the one before left, down to the
calls and blocks within. A call or block that fails is finished too; where one
nests too deep, the evaluation has no end and its course does not count.
-/
namespace KoreanScript

variable {α β : Type}

/-- The moments of an evaluation, by the store that it starts in. -/
def Course := Store → List Moment

namespace Course

/-- Nothing happens to any frame. -/
def still : Course := fun _ => []
/-- The course of an evaluation `x`, and of what it leads to where it gives a value. -/
def andThen (x : Eval α) (first : Course) (rest : α → Course) : Course := fun s =>
  first s ++
    match x s with
    | .done a t => rest a t
    | .failed _ _ | .tooDeep => []
/-- The binding of a name. -/
def assigning (f : FrameId) (name : String) (v : Value) : Course :=
  andThen (Eval.assign f name v) still fun _ s => [.bound s]
/-- The course of an evaluation `x` in a frame made for it, up to the moment at which it is finished. -/
def within (frame : Frame) (x : FrameId → Eval α) (inside : FrameId → Course) : Course :=
  andThen (Eval.enter frame) still fun g s => inside g s ++ ((x g s).store?.map (Moment.finished g)).toList
/-- What ends in a frame of its own is finished at the end. -/
theorem within_of_ends {frame : Frame} {x : FrameId → Eval α} {s t : Store}
    (ends : ((Eval.enter frame >>= x) s).store? = some t) (inside : FrameId → Course) :
    within frame x inside s = inside s.next (s.push frame) ++ [.finished s.next t] := by
  have body : (x s.next (s.push frame)).store? = some t := ends
  simp [within, andThen, still, Eval.enter, body]

end Course

open Course (still andThen assigning within)

section
variable (call : Closure → List Value → Eval Value) (called : Closure → List Value → Course)

mutual
/-- The course of evaluating an expression in frame `f`, given those of the calls within. -/
def Expr.course (f : FrameId) : Expr → Course
  | .identifier _ | .number _ _ | .boolean _ _ | .string _ _ | .function _ _ _ => still
  | .prefixed _ e _ => Expr.course f e
  | .binary _ l r _ => andThen (l.eval call f) (Expr.course f l) fun _ => Expr.course f r
  | .call c es _ =>
    match c.builtin? with
    | some _ => Expr.courseAll f es
    | none =>
      andThen (c.eval call f) (Expr.course f c) fun v =>
        andThen (Expr.evalAll call f es) (Expr.courseAll f es) fun vs =>
          match v with
          | .function g => called g vs
          | _ => still
  | .assignment i e _ => andThen (e.eval call f) (Expr.course f e) (assigning f i.name)
  | .list es _ => Expr.courseAll f es
  | .table es _ => Expr.courseEntries f es
def Expr.courseAll (f : FrameId) : List Expr → Course
  | [] => still
  | e :: es => andThen (e.eval call f) (Expr.course f e) fun _ => Expr.courseAll f es
def Expr.courseEntries (f : FrameId) : List (Expr × Expr) → Course
  | [] => still
  | (k, e) :: es =>
    andThen (k.eval call f) (Expr.course f k) fun key =>
      if key.isKey then andThen (e.eval call f) (Expr.course f e) fun _ => Expr.courseEntries f es
      else still
def Statement.course (f : FrameId) : Statement → Course
  | .branch p b c _ =>
    andThen (p.eval call f) (Expr.course f p) fun v =>
      match v with
      | .boolean true => Block.course f b
      | .boolean false => Block.courseOption f c
      | _ => still
  | .giveBack e _ | .expression e => Expr.course f e
/-- The course of statements up to the first return. -/
def Statement.courseAll (f : FrameId) : List Statement → Course
  | [] => still
  | a :: as =>
    andThen (a.eval call f) (Statement.course f a) fun signal =>
      match signal with
      | .value _ => Statement.courseAll f as
      | .giveBack _ _ => still
def Block.course (f : FrameId) : Block → Course
  | ⟨as, _⟩ => within ⟨[], some f⟩ (fun g => Statement.evalAll call g .empty as) fun g => Statement.courseAll g as
def Block.courseOption (f : FrameId) : Option Block → Course
  | none => still
  | some b => Block.course f b
end

end

/-- The course of applying a function. -/
def Closure.course : Nat → Closure → List Value → Course
  | 0, _, _ => still
  | depth + 1, c, arguments =>
    within (c.frame arguments) (fun f => Statement.evalAll (Closure.apply depth) f .empty c.body.statements) fun f =>
      Statement.courseAll (Closure.apply depth) (Closure.course depth) f c.body.statements
def Program.course (depth : Nat) (f : FrameId) (p : Program) : Course :=
  Statement.courseAll (Closure.apply depth) (Closure.course depth) f p.statements

/-! ### Evaluations take their course -/

namespace Eval
variable {f : FrameId}

/-- Wherever the evaluation ends, a run in frame `f` leads there through the moments of the course. -/
def Takes (f : FrameId) (x : Eval α) (course : Course) : Prop :=
  ∀ s t, (x s).store? = some t → Runs f s (course s) t

theorem Takes.pure (f : FrameId) (a : α) : (Pure.pure a : Eval α).Takes f still := by
  rintro s t ⟨⟩
  exact .stop f s
theorem Takes.fail (f : FrameId) (cause : EvalError.Cause) (span : Span) :
    (Eval.fail cause span : Eval α).Takes f still := by
  rintro s t ⟨⟩
  exact .stop f s
theorem Takes.lookup (f g : FrameId) (i : Identifier) : (Eval.lookup g i).Takes f still := by
  intro s t ends
  have same : t = s := by
    unfold Eval.lookup at ends
    split at ends
    · exact (Option.some.inj ends).symm
    · exact (Option.some.inj ends).symm
  exact same ▸ .stop f t
theorem Takes.assign (f : FrameId) (name : String) (v : Value) :
    (Eval.assign f name v).Takes f (assigning f name v) := by
  rintro s t ⟨⟩
  exact .assign name v (.stop f _)
theorem Takes.close (f g : FrameId) (is : List Identifier) (b : Block) : (Eval.close is b g).Takes f still := by
  rintro s t ⟨⟩
  exact .close (.stop f _)
theorem Takes.write (f : FrameId) (line : String) : (Eval.write line).Takes f still := by
  rintro s t ⟨⟩
  exact .write line (.stop f _)
theorem Takes.bind {x : Eval α} {k : α → Eval β} {first : Course} {rest : α → Course}
    (before : x.Takes f first) (behind : ∀ a, (k a).Takes f (rest a)) :
    (x >>= k).Takes f (andThen x first rest) := by
  intro s t ends
  rw [bind_apply] at ends
  have before := before s
  rw [andThen]
  cases run : x s with
  | done a u =>
    rw [run] at before ends
    exact (before u rfl).trans (behind a u t ends)
  | failed e u =>
    rw [run] at before ends
    exact (before t ends).trans (.stop f t)
  | tooDeep =>
    rw [run] at ends
    cases ends
/-- What is made of the value of an evaluation does not change where it ends. -/
theorem store?_bind_pure (x : Eval α) (g : α → β) (s : Store) :
    ((x >>= fun a => Pure.pure (g a)) s).store? = (x s).store? := by
  rw [bind_apply]
  cases x s <;> rfl
/-- What follows an evaluation may leave frames alone. -/
theorem Takes.bind_still {x : Eval α} {k : α → Eval β} {course : Course} (before : x.Takes f course)
    (behind : ∀ a, (k a).Takes f still) : (x >>= k).Takes f course := by
  intro s t ends
  have run := before.bind behind s t ends
  rw [andThen] at run
  cases ended : x s <;> simpa [ended, still] using run
/-- What makes a frame and goes on in it, runs in any frame. -/
theorem Takes.within (f : FrameId) (frame : Frame) {x : FrameId → Eval α} {inside : FrameId → Course}
    (inner : ∀ g, (x g).Takes g (inside g)) : (Eval.enter frame >>= x).Takes f (within frame x inside) := by
  intro s t ends
  rw [Course.within_of_ends ends]
  exact .activate frame (inner s.next (s.push frame) t ends) (.stop f t)

end Eval

open Eval (Takes)

theorem Builtin.apply_takes (f : FrameId) (b : Builtin) (vs : List Value) (span : Span) :
    (b.apply vs span).Takes f still := by
  unfold Builtin.apply
  cases b.line? vs with
  | some line =>
    refine (Takes.write f line).bind_still fun _ => ?_
    cases b.answer vs with
    | ok v => exact .pure f v
    | error r => exact .fail f _ span
  | none =>
    cases b.answer vs with
    | ok v => exact .pure f v
    | error r => exact .fail f _ span

section
variable {call : Closure → List Value → Eval Value} {called : Closure → List Value → Course}

/-- Calls take their courses, wherever they stand. -/
def CallsTake (call : Closure → List Value → Eval Value) (called : Closure → List Value → Course) : Prop :=
  ∀ f c vs, (call c vs).Takes f (called c vs)

mutual
theorem Expr.eval_takes (calls : CallsTake call called) (f : FrameId) :
    ∀ e : Expr, (e.eval call f).Takes f (e.course call called f)
  | .identifier i => by
    rw [Expr.eval, Expr.course]
    exact .lookup f f i
  | .number _ _ | .boolean _ _ | .string _ _ => by
    rw [Expr.eval, Expr.course]
    exact .pure f _
  | .prefixed op e _ => by
    rw [Expr.eval, Expr.course]
    refine (Expr.eval_takes calls f e).bind_still fun v => ?_
    cases op.compute? v with
    | some w => exact .pure f w
    | none => exact .fail f _ _
  | .binary op l r _ => by
    rw [Expr.eval, Expr.course]
    refine (Expr.eval_takes calls f l).bind fun v => (Expr.eval_takes calls f r).bind_still fun w => ?_
    cases op.apply v w with
    | ok u => exact .pure f u
    | error m => exact .fail f _ _
  | .function is b _ => by
    rw [Expr.eval, Expr.course]
    exact .close f f is b
  | .call c es span => by
    rw [Expr.eval, Expr.course]
    cases c.builtin? with
    | some b => exact (Expr.evalAll_takes calls f es).bind_still fun vs => b.apply_takes f vs span
    | none =>
      refine (Expr.eval_takes calls f c).bind fun v => (Expr.evalAll_takes calls f es).bind fun vs => ?_
      cases v with
      | function g => exact calls f g vs
      | _ => exact .fail f _ _
  | .assignment i e _ => by
    rw [Expr.eval, Expr.course]
    exact (Expr.eval_takes calls f e).bind fun v => (Takes.assign f i.name v).bind_still fun _ => .pure f v
  | .list es _ => by
    rw [Expr.eval, Expr.course]
    exact (Expr.evalAll_takes calls f es).bind_still fun vs => .pure f _
  | .table es _ => by
    rw [Expr.eval, Expr.course]
    exact (Expr.evalEntries_takes calls f [] es).bind_still fun table => .pure f _
theorem Expr.evalAll_takes (calls : CallsTake call called) (f : FrameId) :
    ∀ es : List Expr, (Expr.evalAll call f es).Takes f (Expr.courseAll call called f es)
  | [] => by
    rw [Expr.evalAll, Expr.courseAll]
    exact .pure f []
  | e :: es => by
    rw [Expr.evalAll, Expr.courseAll]
    exact (Expr.eval_takes calls f e).bind fun v => (Expr.evalAll_takes calls f es).bind_still fun vs => .pure f _
theorem Expr.evalEntries_takes (calls : CallsTake call called) (f : FrameId) :
    ∀ (table : Table) (es : List (Expr × Expr)), (Expr.evalEntries call f table es).Takes f (Expr.courseEntries call called f es)
  | table, [] => by
    rw [Expr.evalEntries, Expr.courseEntries]
    exact .pure f table
  | table, (k, e) :: es => by
    rw [Expr.evalEntries, Expr.courseEntries]
    refine (Expr.eval_takes calls f k).bind fun key => ?_
    by_cases fit : key.isKey
    · rw [if_pos fit, if_pos fit]
      exact (Expr.eval_takes calls f e).bind fun v => Expr.evalEntries_takes calls f _ es
    · rw [if_neg fit, if_neg fit]
      exact .fail f _ _
theorem Statement.eval_takes (calls : CallsTake call called) (f : FrameId) :
    ∀ a : Statement, (a.eval call f).Takes f (a.course call called f)
  | .branch e b c _ => by
    rw [Statement.eval, Statement.course]
    refine (Expr.eval_takes calls f e).bind fun v => ?_
    cases v with
    | boolean holds =>
      cases holds with
      | true => exact Block.eval_takes calls f f b
      | false => exact Block.evalOption_takes calls f f c
    | _ => exact .fail f _ _
  | .giveBack e span => by
    rw [Statement.eval, Statement.course]
    exact (Expr.eval_takes calls f e).bind_still fun v => .pure f _
  | .expression e => by
    rw [Statement.eval, Statement.course]
    exact (Expr.eval_takes calls f e).bind_still fun v => .pure f _
theorem Statement.evalAll_takes (calls : CallsTake call called) (f : FrameId) :
    ∀ (last : Value) (as : List Statement), (Statement.evalAll call f last as).Takes f (Statement.courseAll call called f as)
  | last, [] => by
    rw [Statement.evalAll, Statement.courseAll]
    exact .pure f _
  | last, a :: as => by
    rw [Statement.evalAll, Statement.courseAll]
    refine (Statement.eval_takes calls f a).bind fun signal => ?_
    cases signal with
    | value v => exact Statement.evalAll_takes calls f v as
    | giveBack v span => exact .pure f _
/-- A block runs in a frame of its own, wherever it stands. -/
theorem Block.eval_takes (calls : CallsTake call called) (f g : FrameId) :
    ∀ b : Block, (b.eval call f).Takes g (b.course call called f)
  | ⟨as, _⟩ => by
    rw [Block.eval, Block.course]
    exact .within g _ fun h => Statement.evalAll_takes calls h .empty as
theorem Block.evalOption_takes (calls : CallsTake call called) (f g : FrameId) :
    ∀ b : Option Block, (Block.evalOption call f b).Takes g (Block.courseOption call called f b)
  | none => by
    rw [Block.evalOption, Block.courseOption]
    exact .pure g _
  | some b => by
    rw [Block.evalOption, Block.courseOption]
    exact Block.eval_takes calls f g b
end

end

/-- The application of a function runs in a frame of its own, wherever it is called. -/
theorem Closure.apply_takes (depth : Nat) : CallsTake (Closure.apply depth) (Closure.course depth) := by
  induction depth with
  | zero =>
    rintro f c vs s t ⟨⟩
  | succ depth ih =>
    intro f c vs
    rw [Closure.apply, Closure.course, ← bind_assoc]
    exact (Takes.within f _ fun g => Statement.evalAll_takes ih g .empty c.body.statements).bind_still fun _ => .pure f _
theorem Program.eval_takes (depth : Nat) (f : FrameId) (p : Program) : (p.eval depth f).Takes f (p.course depth f) := by
  rw [Program.eval, Program.course]
  refine (Statement.evalAll_takes (Closure.apply_takes depth) f .empty p.statements).bind_still fun signal => ?_
  cases signal with
  | value v => exact .pure f v
  | giveBack v span => exact .fail f _ span

/-- What can be evaluated in a store. -/
inductive Task where
  | expression (f : FrameId) (e : Expr)
  | statement (f : FrameId) (s : Statement)
  | program (f : FrameId) (p : Program)
  | block (f : FrameId) (b : Block)
  | application (c : Closure) (arguments : List Value)

namespace Task

/-- The frame that a task runs in; blocks and applications make their own. -/
def frame? : Task → Option FrameId
  | expression f _ | statement f _ | program f _ => some f
  | block _ _ | application _ _ => none
/-- The store that a task ends in, if calls nest at most `depth` deep. -/
def run (depth : Nat) : Task → Store → Option Store
  | expression f e, s => (e.eval (Closure.apply depth) f s).store?
  | statement f x, s => (x.eval (Closure.apply depth) f s).store?
  | program f p, s => (p.eval depth f s).store?
  | block f b, s => (b.eval (Closure.apply depth) f s).store?
  | application c vs, s => (Closure.apply depth c vs s).store?
/-- The course of a task. -/
def course (depth : Nat) : Task → Course
  | expression f e => e.course (Closure.apply depth) (Closure.course depth) f
  | statement f x => x.course (Closure.apply depth) (Closure.course depth) f
  | program f p => p.course depth f
  | block f b => b.course (Closure.apply depth) (Closure.course depth) f
  | application c vs => Closure.course depth c vs
/-- A task runs in its frame, and a task without one in any frame, and the run takes the task's course. -/
theorem runs {depth : Nat} {task : Task} {s t : Store} {f : FrameId} (ends : task.run depth s = some t)
    (own : ∀ g ∈ task.frame?, g = f) : Runs f s (task.course depth s) t := by
  have calls := Closure.apply_takes depth
  cases task with
  | expression g e => exact own g rfl ▸ e.eval_takes calls g s t ends
  | statement g x => exact own g rfl ▸ x.eval_takes calls g s t ends
  | program g p => exact own g rfl ▸ p.eval_takes depth g s t ends
  | block g b => exact b.eval_takes calls g f s t ends
  | application c vs => exact calls f c vs s t ends
/-- A task without a frame makes one, runs in that, and finishes it at the end. -/
theorem runs_within {depth : Nat} {task : Task} {s t : Store} (ends : task.run depth s = some t)
    (none : task.frame? = none) : ∃ frame inside, Runs s.next (s.push frame) inside t ∧
      task.course depth s = inside ++ [.finished s.next t] := by
  have calls := Closure.apply_takes depth
  cases task with
  | expression | statement | program => cases none
  | block f b =>
    obtain ⟨as, span⟩ := b
    rw [run, Block.eval] at ends
    rw [course, Block.course]
    exact ⟨_, _, Statement.evalAll_takes calls s.next .empty as _ t ends, Course.within_of_ends ends _⟩
  | application c vs =>
    cases depth with
    | zero => cases ends
    | succ depth =>
      rw [run, Closure.apply, ← bind_assoc, Eval.store?_bind_pure] at ends
      rw [course, Closure.course]
      have calls := Closure.apply_takes depth
      exact ⟨_, _, Statement.evalAll_takes calls s.next .empty c.body.statements _ t ends, Course.within_of_ends ends _⟩

end Task
end KoreanScript
