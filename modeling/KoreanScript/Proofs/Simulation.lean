import KoreanScript.Evaluation
import KoreanScript.Proofs.ValueLikeness

/-!
Evaluations side by side. What stands in for what in two evaluations is a simulation if
every step that an evaluation can take keeps it up: to look a name up, to bind one, to
make a frame or a function, to write a line. Evaluations of trees that are alike keep it up
as a whole: they write the same lines, make their frames in the same order and end in
related values or with one cause.
-/
namespace KoreanScript

/-- A line that is written on both sides goes behind the lines that both have written since. -/
theorem Store.write_since {before before' : Array String} {s t : Store} (line : String)
    (since : ∃ lines, s.output = before ++ lines ∧ t.output = before' ++ lines) :
    ∃ lines, (s.write line).output = before ++ lines ∧ (t.write line).output = before' ++ lines := by
  obtain ⟨lines, left, right⟩ := since
  refine ⟨lines.push line, ?_, ?_⟩
  · simp only [write, left, Array.push_append]
  · simp only [write, right, Array.push_append]

/-- What stands in for what in two evaluations, such that each step keeps it up. -/
structure Simulation where
  /-- The ways in which code may be alike. -/
  code : Likeness → Prop
  frames : FrameId → FrameId → Prop
  closures : Closure → Closure → Prop
  /-- Stores that the two evaluations may have reached at the same time. -/
  stores : Store → Store → Prop
  unfolds {c d : Closure} : closures c d → ∃ L, code L ∧ c.Alike L frames d
  lookup {s t : Store} {f g : FrameId} {L : Likeness} {name : String} : stores s t → frames f g → code L →
    L.names name → Option.Rel (Value.Related closures) (s.lookup f name) (t.lookup g name)
  bind {s t : Store} {f g : FrameId} {L : Likeness} {name : String} {v w : Value} : stores s t → frames f g →
    code L → L.names name → v.Related closures w → stores (s.bind f name v) (t.bind g name w)
  enter {s t : Store} {f g : FrameId} : stores s t → frames f g →
    frames s.next t.next ∧ stores (s.push ⟨[], some f⟩) (t.push ⟨[], some g⟩)
  apply {s t : Store} {c d : Closure} {vs ws : List Value} : stores s t → closures c d →
    List.Forall₂ (Value.Related closures) vs ws →
      frames s.next t.next ∧ stores (s.push (c.frame vs)) (t.push (d.frame ws))
  close {s t : Store} {f g : FrameId} {L : Likeness} {is js : List Identifier} {b c : Block} : stores s t →
    frames f g → code L → List.Forall₂ L.Named is js → b.Alike L c →
      closures ⟨s.functions, is, b, f⟩ ⟨t.functions, js, c, g⟩ ∧
        stores { s with functions := s.functions + 1 } { t with functions := t.functions + 1 }
  write {s t : Store} (line : String) : stores s t → stores (s.write line) (t.write line)

namespace Simulation
variable (S : Simulation)

/-- Values that stand in for each other. -/
abbrev Values : Value → Value → Prop := Value.Related S.closures
/-- Spans that stand in for each other. -/
def Spans (i j : Span) : Prop := ∃ L, S.code L ∧ L.spans i j

variable {S} {f g : FrameId}

theorem texts : OneText S.closures := by
  intro c d related
  obtain ⟨_, _, alike⟩ := S.unfolds related
  exact alike.render_eq

/-! ### Outcomes -/

variable {α β α' β' : Type} {R : α → β → Prop} {R' : α' → β' → Prop}

/-- Ends that stand in for each other. -/
inductive Ends (S : Simulation) (R : α → β → Prop) : Outcome α → Outcome β → Prop
  | done {a : α} {b : β} {s t : Store} : R a b → S.stores s t → Ends S R (.done a s) (.done b t)
  | failed (cause : EvalError.Cause) {i j : Span} {s t : Store} :
    S.Spans i j → S.stores s t → Ends S R (.failed ⟨cause, i⟩ s) (.failed ⟨cause, j⟩ t)
  | tooDeep : Ends S R .tooDeep .tooDeep

/-- Evaluations that end alike wherever they are started at the same time. -/
def Evals (S : Simulation) (R : α → β → Prop) (x : Eval α) (y : Eval β) : Prop :=
  ∀ s t, S.stores s t → S.Ends R (x s) (y t)

namespace Evals

theorem pure {a : α} {b : β} (related : R a b) : S.Evals R (Pure.pure a) (Pure.pure b) :=
  fun _ _ twins => .done related twins
theorem fail (cause : EvalError.Cause) {i j : Span} (spans : S.Spans i j) :
    S.Evals R (Eval.fail cause i) (Eval.fail cause j) :=
  fun _ _ twins => .failed cause spans twins
theorem bind {x : Eval α} {y : Eval β} {h : α → Eval α'} {k : β → Eval β'} (first : S.Evals R x y)
    (rest : ∀ a b, R a b → S.Evals R' (h a) (k b)) : S.Evals R' (x >>= h) (y >>= k) := by
  intro s t twins
  rw [Eval.bind_apply, Eval.bind_apply]
  have ends := first s t twins
  revert ends
  cases x s <;> cases y t <;> rintro (⟨related, twins⟩ | ⟨_, spans, twins⟩ | _)
  · exact rest _ _ related _ _ twins
  · exact .failed _ spans twins
  · exact .tooDeep
theorem write (line : String) : S.Evals (fun _ _ => True) (Eval.write line) (Eval.write line) :=
  fun _ _ twins => .done trivial (S.write line twins)
theorem enter (pair : S.frames f g) : S.Evals S.frames (Eval.enter ⟨[], some f⟩) (Eval.enter ⟨[], some g⟩) :=
  fun _ _ twins => .done (S.enter twins pair).1 (S.enter twins pair).2
theorem apply {c d : Closure} (related : S.closures c d) {vs ws : List Value} (arguments : List.Forall₂ S.Values vs ws) :
    S.Evals S.frames (Eval.enter (c.frame vs)) (Eval.enter (d.frame ws)) :=
  fun _ _ twins => .done (S.apply twins related arguments).1 (S.apply twins related arguments).2

variable {L : Likeness} (code : S.code L)
include code

theorem lookup (pair : S.frames f g) {i j : Identifier} (named : L.Named i j) :
    S.Evals S.Values (Eval.lookup f i) (Eval.lookup g j) := by
  intro s t twins
  rw [Eval.lookup, Eval.lookup, ← named.name]
  rcases rel_cases (S.lookup twins pair code named.counts) with ⟨left, right⟩ | ⟨v, w, left, right, values⟩
  · rw [left, right]
    exact .failed _ ⟨L, code, named.span⟩ twins
  · rw [left, right]
    exact .done values twins
theorem assign (pair : S.frames f g) {i j : Identifier} (named : L.Named i j) {v w : Value} (values : S.Values v w) :
    S.Evals (fun _ _ => True) (Eval.assign f i.name v) (Eval.assign g j.name w) := by
  rw [← named.name]
  exact fun _ _ twins => .done trivial (S.bind twins pair code named.counts values)
theorem close (pair : S.frames f g) {is js : List Identifier} {b c : Block}
    (parameters : List.Forall₂ L.Named is js) (body : b.Alike L c) :
    S.Evals S.Values (Eval.close is b f) (Eval.close js c g) := by
  intro s t twins
  have made := S.close twins pair code parameters body
  exact .done (.function made.1) made.2

end Evals

/-! ### Evaluation -/

theorem builtin_evals (b : Builtin) {vs ws : List Value} (arguments : List.Forall₂ S.Values vs ws) {i j : Span}
    (spans : S.Spans i j) : S.Evals S.Values (b.apply vs i) (b.apply ws j) := by
  rw [Builtin.apply, Builtin.apply, Builtin.line?_related S.texts b arguments]
  have answers := b.answer_related arguments
  revert answers
  cases b.answer vs <;> cases b.answer ws <;> rintro (values | _)
  · cases b.line? ws with
    | some line => exact (Evals.write line).bind fun _ _ _ => .fail _ spans
    | none => exact .fail _ spans
  · cases b.line? ws with
    | some line => exact (Evals.write line).bind fun _ _ _ => .pure values
    | none => exact .pure values

/-- Signals that stand in for each other. -/
inductive Signals (S : Simulation) : Signal → Signal → Prop
  | value {v w : Value} : S.Values v w → Signals S (.value v) (.value w)
  | giveBack {v w : Value} {i j : Span} :
    S.Values v w → S.Spans i j → Signals S (.giveBack v i) (.giveBack w j)

theorem Signals.result {a b : Signal} (signals : S.Signals a b) : S.Values a.result b.result := by
  cases signals with
  | value values | giveBack values _ => exact values
theorem builtin?_eq {L : Likeness} {d e : Expr} (alike : d.Alike L e) : d.builtin? = e.builtin? := by
  cases alike with
  | identifier named => rw [Expr.builtin?, Expr.builtin?, named.name]
  | _ => rfl

/-- Calls of functions that stand in for each other do the same to arguments that do. -/
def Calls (S : Simulation) (call call' : Closure → List Value → Eval Value) : Prop :=
  ∀ c d vs ws, S.closures c d → List.Forall₂ S.Values vs ws → S.Evals S.Values (call c vs) (call' d ws)

section
variable {call call' : Closure → List Value → Eval Value} {L : Likeness}

mutual
theorem Expr.evals (calls : S.Calls call call') (code : S.code L) :
    ∀ {f g : FrameId} {d e : Expr}, S.frames f g → d.Alike L e →
    S.Evals S.Values (d.eval call f) (e.eval call' g)
  | _, _, _, _, pair, .identifier named => by
    rw [Expr.eval, Expr.eval]
    exact .lookup code pair named
  | _, _, _, _, _, .number x _ => by
    rw [Expr.eval, Expr.eval]
    exact .pure (.number x)
  | _, _, _, _, _, .boolean b _ => by
    rw [Expr.eval, Expr.eval]
    exact .pure (.boolean b)
  | _, _, _, _, _, .string w _ => by
    rw [Expr.eval, Expr.eval]
    exact .pure (.string w)
  | _, _, _, _, pair, .prefixed op operand _ => by
    rw [Expr.eval, Expr.eval]
    refine (Expr.evals calls code pair operand).bind fun v w values => ?_
    rcases rel_cases (op.compute?_related values) with ⟨left, right⟩ | ⟨a, b, left, right, related⟩
    · rw [left, right, values.kind_eq]
      exact .fail _ ⟨L, code, operand.span⟩
    · rw [left, right]
      exact .pure related
  | _, _, _, _, pair, .binary op left right _ => by
    rw [Expr.eval, Expr.eval]
    refine (Expr.evals calls code pair left).bind fun v w values => ?_
    refine (Expr.evals calls code pair right).bind fun a b values' => ?_
    rcases op.apply_related values values' with ⟨u, u', done, done', related⟩ | ⟨m, failed, failed'⟩
    · rw [done, done']
      exact .pure related
    · rw [failed, failed']
      refine .fail _ ⟨L, code, ?_⟩
      cases m.side with
      | left => exact left.span
      | right => exact right.span
  | _, _, _, _, pair, .function parameters body _ => by
    rw [Expr.eval, Expr.eval]
    exact .close code pair parameters body
  | _, _, _, _, pair, .call callee arguments spans => by
    rw [Expr.eval, Expr.eval, builtin?_eq callee]
    split
    · refine (Expr.evalAll_evals calls code pair arguments).bind fun vs ws values => ?_
      exact builtin_evals _ values ⟨L, code, spans⟩
    · refine (Expr.evals calls code pair callee).bind fun v w value => ?_
      refine (Expr.evalAll_evals calls code pair arguments).bind fun vs ws values => ?_
      cases value with
      | function related => exact calls _ _ vs ws related values
      | number _ | string _ | boolean _ | empty | list _ | table _ => exact .fail _ ⟨L, code, callee.span⟩
  | _, _, _, _, pair, .callBuiltin found name _ arguments spans => by
    have found' := found
    rw [name] at found'
    simp only [Expr.eval, Expr.builtin?, found, found']
    refine (Expr.evalAll_evals calls code pair arguments).bind fun vs ws values => ?_
    exact builtin_evals _ values ⟨L, code, spans⟩
  | _, _, _, _, pair, .assignment target value _ => by
    rw [Expr.eval, Expr.eval]
    refine (Expr.evals calls code pair value).bind fun v w values => ?_
    exact (Evals.assign code pair target values).bind fun _ _ _ => .pure values
  | _, _, _, _, pair, .list elements _ => by
    rw [Expr.eval, Expr.eval]
    exact (Expr.evalAll_evals calls code pair elements).bind fun vs ws values => .pure (.list values)
  | _, _, _, _, pair, .table entries _ => by
    rw [Expr.eval, Expr.eval]
    exact (Expr.evalEntries_evals calls code pair .nil entries).bind fun es fs related => .pure (.table related)
theorem Expr.evalAll_evals (calls : S.Calls call call') (code : S.code L) :
    ∀ {f g : FrameId} {ds es : List Expr}, S.frames f g →
    Expr.AllAlike L ds es → S.Evals (List.Forall₂ S.Values) (Expr.evalAll call f ds) (Expr.evalAll call' g es)
  | _, _, _, _, _, .nil => by
    rw [Expr.evalAll, Expr.evalAll]
    exact .pure .nil
  | _, _, _, _, pair, .cons first rest => by
    rw [Expr.evalAll, Expr.evalAll]
    refine (Expr.evals calls code pair first).bind fun v w value => ?_
    exact (Expr.evalAll_evals calls code pair rest).bind fun vs ws values => .pure (.cons value values)
theorem Expr.evalEntries_evals (calls : S.Calls call call') (code : S.code L) :
    ∀ {f g : FrameId} {as bs : Table} {ds es : List (Expr × Expr)}, S.frames f g →
    List.Forall₂ (Value.EntryRelated S.closures) as bs → Expr.EntriesAlike L ds es →
      S.Evals (List.Forall₂ (Value.EntryRelated S.closures))
        (Expr.evalEntries call f as ds) (Expr.evalEntries call' g bs es)
  | _, _, _, _, _, _, _, tables, .nil => by
    rw [Expr.evalEntries, Expr.evalEntries]
    exact .pure tables
  | _, _, _, _, _, _, pair, tables, .cons key value rest => by
    rw [Expr.evalEntries, Expr.evalEntries]
    refine (Expr.evals calls code pair key).bind fun k l keys => ?_
    rw [← keys.isKey_eq]
    split
    · next hashable =>
      refine (Expr.evals calls code pair value).bind fun v w values => ?_
      exact Expr.evalEntries_evals calls code pair (Entries.insert_related keys values hashable tables) rest
    · rw [keys.describe_eq]
      exact .fail _ ⟨L, code, key.span⟩
theorem Statement.evals (calls : S.Calls call call') (code : S.code L) :
    ∀ {f g : FrameId} {a b : Statement}, S.frames f g → a.Alike L b →
    S.Evals S.Signals (a.eval call f) (b.eval call' g)
  | _, _, _, _, pair, .branch predicate block _ => by
    rw [Statement.eval, Statement.eval]
    refine (Expr.evals calls code pair predicate).bind fun v w value => ?_
    cases value with
    | boolean b =>
      cases b with
      | true => exact Block.evals calls code pair block
      | false =>
        simp only [Block.evalOption]
        exact .pure (.value .empty)
    | number _ | string _ | function _ | empty | list _ | table _ => exact .fail _ ⟨L, code, predicate.span⟩
  | _, _, _, _, pair, .branchElse predicate block other _ => by
    rw [Statement.eval, Statement.eval]
    refine (Expr.evals calls code pair predicate).bind fun v w value => ?_
    cases value with
    | boolean b =>
      cases b with
      | true => exact Block.evals calls code pair block
      | false =>
        simp only [Block.evalOption]
        exact Block.evals calls code pair other
    | number _ | string _ | function _ | empty | list _ | table _ => exact .fail _ ⟨L, code, predicate.span⟩
  | _, _, _, _, pair, .giveBack value spans => by
    rw [Statement.eval, Statement.eval]
    exact (Expr.evals calls code pair value).bind fun v w values => .pure (.giveBack values ⟨L, code, spans⟩)
  | _, _, _, _, pair, .expression alike => by
    rw [Statement.eval, Statement.eval]
    exact (Expr.evals calls code pair alike).bind fun v w values => .pure (.value values)
theorem Statement.evalAll_evals (calls : S.Calls call call') (code : S.code L) :
    ∀ {f g : FrameId} {v w : Value} {as bs : List Statement}, S.frames f g →
    S.Values v w → Statement.AllAlike L as bs →
      S.Evals S.Signals (Statement.evalAll call f v as) (Statement.evalAll call' g w bs)
  | _, _, _, _, _, _, _, last, .nil => by
    rw [Statement.evalAll, Statement.evalAll]
    exact .pure (.value last)
  | _, _, _, _, _, _, pair, _, .cons first rest => by
    rw [Statement.evalAll, Statement.evalAll]
    refine (Statement.evals calls code pair first).bind fun a b signals => ?_
    cases signals with
    | value values => exact Statement.evalAll_evals calls code pair values rest
    | giveBack values spans => exact .pure (.giveBack values spans)
theorem Block.evals (calls : S.Calls call call') (code : S.code L) :
    ∀ {f g : FrameId} {b c : Block}, S.frames f g → b.Alike L c →
    S.Evals S.Signals (b.eval call f) (c.eval call' g)
  | _, _, _, _, pair, .mk statements _ => by
    rw [Block.eval, Block.eval]
    exact (Evals.enter pair).bind fun h k pair' => Statement.evalAll_evals calls code pair' .empty statements
end

end

/-- Functions that stand in for each other do the same to arguments that do. -/
theorem apply_evals (depth : Nat) : S.Calls (Closure.apply depth) (Closure.apply depth) := by
  induction depth with
  | zero => exact fun _ _ _ _ _ _ _ _ _ => .tooDeep
  | succ depth ih =>
    intro c d vs ws related arguments
    obtain ⟨L, code, alike⟩ := S.unfolds related
    rw [Closure.apply, Closure.apply]
    refine (Evals.apply related arguments).bind fun f g pair => ?_
    refine (Statement.evalAll_evals ih code pair .empty alike.body.statements).bind fun a b signals => ?_
    exact .pure signals.result
/-- Programs with statements that are alike do the same. -/
theorem program_evals (depth : Nat) (pair : S.frames f g) {L : Likeness} (code : S.code L) {p q : Program}
    (alike : Statement.AllAlike L p.statements q.statements) : S.Evals S.Values (p.eval depth f) (q.eval depth g) := by
  rw [Program.eval, Program.eval]
  refine (Statement.evalAll_evals (apply_evals depth) code pair .empty alike).bind fun a b signals => ?_
  cases signals with
  | value values => exact .pure values
  | giveBack values spans =>
    simp only [values.render_eq S.texts]
    exact .fail _ spans

end Simulation
end KoreanScript
