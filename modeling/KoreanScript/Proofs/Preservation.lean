import KoreanScript.Proofs.Soundness

/-!
Evaluation keeps stores sound. What it needs is a frame to run in and sound arguments
for the functions that it applies; what it gives are sound values, and whatever it
has made of the store is sound also where it fails. So all stores of a session are.
-/
namespace KoreanScript

variable {α β : Type} {R : Nat → α → Prop} {R' : Nat → β → Prop} {n m : Nat} {f : FrameId}

namespace Eval

/-- An end with a sound store of at least `n` frames, and with a result that `R` allows in a
    store of that size. -/
inductive SoundEnd (n : Nat) (R : Nat → α → Prop) : Outcome α → Prop
  | done {a : α} {s : Store} : s.Sound → n ≤ s.frames.size → R s.frames.size a → SoundEnd n R (.done a s)
  | failed (e : EvalError) {s : Store} : s.Sound → n ≤ s.frames.size → SoundEnd n R (.failed e s)
  | tooDeep : SoundEnd n R .tooDeep

/-- Wherever it starts with at least `n` frames and in a sound store, the evaluation has a sound
    end. -/
def Keeps (n : Nat) (R : Nat → α → Prop) (x : Eval α) : Prop :=
  ∀ s : Store, s.Sound → n ≤ s.frames.size → SoundEnd n R (x s)

theorem SoundEnd.le (enough : n ≤ m) {o : Outcome α} (ends : SoundEnd m R o) : SoundEnd n R o := by
  cases ends with
  | done sound grown result => exact .done sound (Nat.le_trans enough grown) result
  | failed e sound grown => exact .failed e sound (Nat.le_trans enough grown)
  | tooDeep => exact .tooDeep

namespace Keeps

theorem pure {a : α} (result : ∀ m, n ≤ m → R m a) : (Pure.pure a : Eval α).Keeps n R :=
  fun _ sound enough => .done sound enough (result _ enough)
theorem fail (cause : EvalError.Cause) (span : Span) : (Eval.fail cause span : Eval α).Keeps n R :=
  fun _ sound enough => .failed _ sound enough
theorem bind {x : Eval α} {k : α → Eval β} (first : x.Keeps n R)
    (rest : ∀ m a, n ≤ m → R m a → (k a).Keeps m R') : (x >>= k).Keeps n R' := by
  intro s sound enough
  rw [bind_apply]
  have ends := first s sound enough
  revert ends
  cases x s <;> rintro (⟨sound, grown, result⟩ | ⟨_, sound, grown⟩ | _)
  · exact (rest _ _ grown result _ sound (Nat.le_refl _)).le grown
  · exact .failed _ sound grown
  · exact .tooDeep
theorem lookup (i : Identifier) : (Eval.lookup f i).Keeps n Value.SoundBelow := by
  intro s sound enough
  rw [Eval.lookup]
  split
  · next found => exact .done sound enough (sound.lookup found)
  · exact .failed _ sound enough
theorem assign (name : String) {v : Value} (value : v.SoundBelow n) :
    (Eval.assign f name v).Keeps n fun _ _ => True := by
  intro s sound enough
  refine .done (sound.bind f name (value.le enough)) ?_ trivial
  rw [Store.size_bind]
  exact enough
theorem enter {frame : Frame} (fits : frame.SoundBelow n) : (Eval.enter frame).Keeps n fun m f => f < m := by
  intro s sound enough
  refine .done (sound.push (fits.le enough)) ?_ (s.next_lt_size_push frame)
  rw [Store.size_push]
  exact Nat.le_succ_of_le enough
theorem close (here : f < n) (ps : List Identifier) (b : Block) : (Eval.close ps b f).Keeps n Value.SoundBelow :=
  fun _ sound enough => .done sound.close enough (.function (Nat.lt_of_lt_of_le here enough))
theorem write (line : String) : (Eval.write line).Keeps n fun _ _ => True :=
  fun _ sound enough => .done (sound.write line) enough trivial

end Keeps
end Eval

open Eval (Keeps)

/-- All of the values are sound. -/
abbrev Value.AllSoundBelow (n : Nat) (vs : List Value) : Prop := ∀ v ∈ vs, v.SoundBelow n
/-- The value of the signal is sound. -/
abbrev Signal.SoundBelow (n : Nat) (signal : Signal) : Prop := signal.result.SoundBelow n
/-- The entries make a sound table. -/
abbrev Value.EntriesSoundBelow (n : Nat) (es : Table) : Prop := Value.SoundBelow n (.table es)

theorem Builtin.apply_keeps (b : Builtin) {vs : List Value} (arguments : Value.AllSoundBelow n vs) (span : Span) :
    (b.apply vs span).Keeps n Value.SoundBelow := by
  have answer : ∀ v, b.answer vs = .ok v → v.SoundBelow n := fun v => Builtin.answer_sound arguments
  unfold Builtin.apply
  cases b.line? vs with
  | some line =>
    refine (Keeps.write line).bind fun m _ enough _ => ?_
    cases answered : b.answer vs with
    | ok v => exact .pure fun _ more => ((answer v answered).le enough).le more
    | error r => exact .fail _ span
  | none =>
    cases answered : b.answer vs with
    | ok v => exact .pure fun _ more => (answer v answered).le more
    | error r => exact .fail _ span

/-- Calls keep stores sound, wherever they stand. -/
def CallsKeep (call : Closure → List Value → Eval Value) : Prop :=
  ∀ n c vs, c.scope < n → Value.AllSoundBelow n vs → (call c vs).Keeps n Value.SoundBelow

section
variable {call : Closure → List Value → Eval Value}

mutual
theorem Expr.eval_keeps (calls : CallsKeep call) :
    ∀ {n : Nat} {f : FrameId} (e : Expr), f < n → (Expr.eval call f e).Keeps n Value.SoundBelow
  | _, _, .identifier i, _ => by
    rw [Expr.eval]
    exact .lookup i
  | _, _, .number x _, _ => by
    rw [Expr.eval]
    exact .pure fun _ _ => .number x
  | _, _, .boolean b _, _ => by
    rw [Expr.eval]
    exact .pure fun _ _ => .boolean b
  | _, _, .string s _, _ => by
    rw [Expr.eval]
    exact .pure fun _ _ => .string s
  | _, _, .prefixed op e _, here => by
    rw [Expr.eval]
    refine (Expr.eval_keeps calls e here).bind fun m v enough value => ?_
    cases computed : op.compute? v with
    | some w => exact .pure fun _ _ => PrefixOperator.compute?_sound computed
    | none => exact .fail _ _
  | _, _, .binary op l r _, here => by
    rw [Expr.eval]
    refine (Expr.eval_keeps calls l here).bind fun m v enough value => ?_
    refine (Expr.eval_keeps calls r (Nat.lt_of_lt_of_le here enough)).bind fun m w enough value => ?_
    cases applied : op.apply v w with
    | ok u => exact .pure fun _ _ => InfixOperator.apply_sound applied
    | error r => exact .fail _ _
  | _, _, .function ps b _, here => by
    rw [Expr.eval]
    exact .close here ps b
  | _, _, .call c es span, here => by
    rw [Expr.eval]
    cases c.builtin? with
    | some b => exact (Expr.evalAll_keeps calls es here).bind fun m vs _ values => b.apply_keeps values span
    | none =>
      refine (Expr.eval_keeps calls c here).bind fun m v enough value => ?_
      refine (Expr.evalAll_keeps calls es (Nat.lt_of_lt_of_le here enough)).bind fun m vs enough values => ?_
      cases value with
      | function made => exact calls m _ vs (Nat.lt_of_lt_of_le made enough) values
      | number _ | string _ | boolean _ | empty | list _ | table _ => exact .fail _ _
  | _, _, .assignment i e _, here => by
    rw [Expr.eval]
    refine (Expr.eval_keeps calls e here).bind fun m v enough value => ?_
    exact (Keeps.assign i.name value).bind fun _ _ more _ => .pure fun _ most => (value.le more).le most
  | _, _, .list es _, here => by
    rw [Expr.eval]
    refine (Expr.evalAll_keeps calls es here).bind fun m vs _ values => .pure fun _ more => .list fun v member => ?_
    exact (values v member).le more
  | _, _, .table es _, here => by
    rw [Expr.eval]
    refine (Expr.evalEntries_keeps calls es here (.table .nil (List.forall_mem_nil _))).bind fun m entries _ sound => ?_
    exact .pure fun _ more => sound.le more
theorem Expr.evalAll_keeps (calls : CallsKeep call) : ∀ {n : Nat} {f : FrameId} (es : List Expr), f < n →
    (Expr.evalAll call f es).Keeps n Value.AllSoundBelow
  | _, _, [], _ => by
    rw [Expr.evalAll]
    exact .pure fun _ _ => List.forall_mem_nil _
  | _, _, e :: es, here => by
    rw [Expr.evalAll]
    refine (Expr.eval_keeps calls e here).bind fun m v enough value => ?_
    refine (Expr.evalAll_keeps calls es (Nat.lt_of_lt_of_le here enough)).bind fun k vs more values => ?_
    refine .pure fun _ most => List.forall_mem_cons.mpr ⟨(value.le more).le most, fun w member => ?_⟩
    exact (values w member).le most
theorem Expr.evalEntries_keeps (calls : CallsKeep call) :
    ∀ {n : Nat} {f : FrameId} {table : Table} (es : List (Expr × Expr)), f < n →
    Value.EntriesSoundBelow n table → (Expr.evalEntries call f table es).Keeps n Value.EntriesSoundBelow
  | _, _, _, [], _, sound => by
    rw [Expr.evalEntries]
    exact .pure fun _ more => sound.le more
  | _, _, _, (k, e) :: es, here, sound => by
    rw [Expr.evalEntries]
    refine (Expr.eval_keeps calls k here).bind fun m key enough _ => ?_
    have here := Nat.lt_of_lt_of_le here enough
    split
    · next hashable =>
      refine (Expr.eval_keeps calls e here).bind fun k v more value => ?_
      exact Expr.evalEntries_keeps calls es (Nat.lt_of_lt_of_le here more)
        (((sound.le enough).le more).insert hashable value)
    · exact .fail _ _
theorem Statement.eval_keeps (calls : CallsKeep call) : ∀ {n : Nat} {f : FrameId} (s : Statement), f < n →
    (Statement.eval call f s).Keeps n Signal.SoundBelow
  | _, _, .branch p b c _, here => by
    rw [Statement.eval]
    refine (Expr.eval_keeps calls p here).bind fun m v enough _ => ?_
    have here := Nat.lt_of_lt_of_le here enough
    split
    · exact Block.eval_keeps calls b here
    · exact Block.evalOption_keeps calls c here
    · exact .fail _ _
  | _, _, .giveBack e span, here => by
    rw [Statement.eval]
    exact (Expr.eval_keeps calls e here).bind fun m v _ value => .pure fun _ more => value.le more
  | _, _, .expression e, here => by
    rw [Statement.eval]
    exact (Expr.eval_keeps calls e here).bind fun m v _ value => .pure fun _ more => value.le more
theorem Statement.evalAll_keeps (calls : CallsKeep call) :
    ∀ {n : Nat} {f : FrameId} {last : Value} (ss : List Statement), f < n →
    last.SoundBelow n → (Statement.evalAll call f last ss).Keeps n Signal.SoundBelow
  | _, _, _, [], _, sound => by
    rw [Statement.evalAll]
    exact .pure fun _ more => sound.le more
  | _, _, _, s :: ss, here, _ => by
    rw [Statement.evalAll]
    refine (Statement.eval_keeps calls s here).bind fun m signal enough value => ?_
    cases signal with
    | value v => exact Statement.evalAll_keeps calls ss (Nat.lt_of_lt_of_le here enough) value
    | giveBack v span => exact .pure fun _ more => value.le more
theorem Block.eval_keeps (calls : CallsKeep call) : ∀ {n : Nat} {f : FrameId} (b : Block), f < n →
    (Block.eval call f b).Keeps n Signal.SoundBelow
  | _, f, ⟨ss, _⟩, here => by
    rw [Block.eval]
    have fits : Frame.SoundBelow _ ⟨[], some f⟩ := ⟨by simpa using here, by simp⟩
    exact (Keeps.enter fits).bind fun m g _ made => Statement.evalAll_keeps calls ss made .empty
theorem Block.evalOption_keeps (calls : CallsKeep call) :
    ∀ {n : Nat} {f : FrameId} (b : Option Block), f < n →
    (Block.evalOption call f b).Keeps n Signal.SoundBelow
  | _, _, none, _ => by
    rw [Block.evalOption]
    exact .pure fun _ _ => .empty
  | _, _, some b, here => by
    rw [Block.evalOption]
    exact Block.eval_keeps calls b here
end

end

/-- What a call binds is an argument or the empty value. -/
theorem bindParameters_all {P : Value → Prop} (empty : P .empty) : ∀ (ps : List Identifier) {vs : List Value}
    {bindings : List (String × Value)}, (∀ v ∈ vs, P v) → (∀ e ∈ bindings, P e.2) →
      ∀ e ∈ bindParameters ps vs bindings, P e.2
  | [], _, _, _, bound => bound
  | p :: ps, vs, bindings, arguments, bound => by
    have first : P (vs.headD .empty) := by
      cases vs with
      | nil => exact empty
      | cons v vs => exact arguments v List.mem_cons_self
    rw [bindParameters]
    refine bindParameters_all empty ps (fun v member => arguments v (List.mem_of_mem_tail member)) fun e member => ?_
    rcases Entries.mem_insert member with written | member
    · rw [written]
      exact first
    · exact bound e member
/-- Applying a function to sound arguments keeps the store sound. -/
theorem Closure.apply_keeps (depth : Nat) : ∀ (n : Nat) (c : Closure) (vs : List Value), c.scope < n →
    Value.AllSoundBelow n vs → (Closure.apply depth c vs).Keeps n Value.SoundBelow := by
  induction depth with
  | zero =>
    intro n c vs _ _ s _ _
    exact .tooDeep
  | succ depth ih =>
    intro n c vs made arguments
    have fits : (c.frame vs).SoundBelow n :=
      ⟨by simpa [Closure.frame] using made, bindParameters_all .empty c.parameters arguments (by simp)⟩
    rw [Closure.apply]
    refine (Keeps.enter fits).bind fun m f _ here => ?_
    refine (Statement.evalAll_keeps ih c.body.statements here .empty).bind fun k signal _ value => ?_
    exact .pure fun _ more => value.le more
theorem Program.eval_keeps (depth : Nat) (p : Program) (here : f < n) :
    (p.eval depth f).Keeps n Value.SoundBelow := by
  rw [Program.eval]
  refine (Statement.evalAll_keeps (Closure.apply_keeps depth) p.statements here .empty).bind ?_
  intro m signal _ value
  cases signal with
  | value v => exact .pure fun _ more => value.le more
  | giveBack v span => exact .fail _ span


namespace Session

/-- Executing a text in a sound store leaves a sound store, and gives a sound value or an error. -/
theorem execute_sound {depth : Nat} {source : String} {s : Session} {x : Execution} (sound : s.store.Sound)
    (inside : globals < s.store.frames.size) (executed : s.execute depth source = some x) :
    x.session.store.Sound ∧ globals < x.session.store.frames.size ∧
      ∀ v, x.result = .ok v → v.SoundBelow x.session.store.frames.size := by
  cases parsed : Program.ofSource source with
  | error e =>
    simp only [execute, parsed] at executed
    cases executed
    exact ⟨sound, inside, by simp⟩
  | ok p =>
    simp only [execute, parsed, observe] at executed
    have ends := Program.eval_keeps depth p inside s.store.silence sound.silence (Nat.le_refl _)
    revert ends executed
    cases p.eval depth globals s.store.silence <;>
      rintro executed (⟨sound, grown, value⟩ | ⟨_, sound, grown⟩ | _) <;> cases executed
    · refine ⟨sound, Nat.lt_of_lt_of_le inside grown, ?_⟩
      rintro v ⟨⟩
      exact value
    · exact ⟨sound, Nat.lt_of_lt_of_le inside grown, by simp⟩
/-- The store of a session is sound, and has the frame of the globals. -/
theorem Later.sound {s : Session} (reached : initial.Later s) :
    s.store.Sound ∧ globals < s.store.frames.size := by
  induction reached with
  | now => exact ⟨Store.Sound.initial.push ⟨by simp, by simp⟩, by simp [initial, globals, Store.push]⟩
  | execute depth source _ executed ih =>
    obtain ⟨sound, inside, _⟩ := execute_sound ih.1 ih.2 executed
    exact ⟨sound, inside⟩

end Session
end KoreanScript
