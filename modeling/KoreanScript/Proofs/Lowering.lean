import KoreanScript.Session
import KoreanScript.Proofs.FrameRelation
import KoreanScript.Proofs.Simulation
import KoreanScript.Proofs.Slices

/-!
Functions further down in a text. Where the text of some functions stands some rows
further down, evaluations do the same as otherwise: they give the same values and bind the
same, down to which evaluation made which function, or fail for one cause. Only the rows
in those functions, and in an error that is found in their text, are other ones.
-/
namespace KoreanScript

/-- A span `n` rows further down. -/
def Span.lower (n : Nat) (s : Span) : Span := ⟨⟨n + s.first.row, s.first.column⟩, ⟨n + s.last.row, s.last.column⟩⟩

/-- Equality up to rows: on the left, everything stands `n` rows further down. -/
def Likeness.lowered (n : Nat) : Likeness := ⟨fun i j => i = j.lower n, fun _ => True⟩

theorem Position.beyond_row (n : Nat) (p : Position) : beyond ⟨n, 0⟩ p = ⟨n + p.row, p.column⟩ := by
  by_cases top : p.row = 0
  · simp [beyond, top]
  · simp [beyond, top]
/-- What stands behind the beginning of a row stands that many rows further down. -/
theorem Likeness.moved_row (n : Nat) : moved ⟨n, 0⟩ = lowered n := by
  simp only [moved, lowered, Span.lower, Position.beyond_row]

/-- The same function, or on the left the one with its text `n` rows further down. -/
inductive Closure.Lowered (n : Nat) : Closure → Closure → Prop
  | same (c : Closure) : Lowered n c c
  | lowered {c d : Closure} : c.mark = d.mark → c.Alike (.lowered n) Eq d → Lowered n c d

/-- Values that are the same but for the rows in functions whose text stands further down. -/
abbrev Value.Lowered (n : Nat) : Value → Value → Prop := Value.Related (Closure.Lowered n)

/-- Stores that bind the same but for the rows in functions whose text stands further down. -/
structure Store.Lowered (n : Nat) (s t : Store) : Prop where
  size : s.frames.size = t.frames.size
  functions : s.functions = t.functions
  frames : s.FramesRelated (fun _ => True) (Value.Lowered n) Eq t

theorem keepsOrder_eq : KeepsOrder Eq := by
  rintro f _ f' _ rfl rfl
  exact Iff.rfl
theorem Closure.Lowered.scope {n : Nat} {c d : Closure} (lowered : c.Lowered n d) : c.scope = d.scope := by
  cases lowered with
  | same => rfl
  | lowered _ alike => exact alike.scope
theorem Closure.Lowered.names {n : Nat} {c d : Closure} (lowered : c.Lowered n d) :
    List.Forall₂ (fun i j => i.name = j.name) c.parameters d.parameters := by
  cases lowered with
  | same => exact List.forall₂_same.mpr fun _ _ => rfl
  | lowered _ alike => exact alike.parameters.imp fun _ _ named => named.name

namespace Store
variable {n : Nat} {s t : Store}

/-- Only the rows in functions count as other ones, not the lines written. -/
theorem Lowered.of_frames (same : s.frames = t.frames) (functions : s.functions = t.functions) : s.Lowered n t := by
  refine ⟨by rw [same], functions, ?_⟩
  rintro f _ rfl
  rw [same]
  refine rel_self fun frame _ => ⟨fun name _ => ?_, ?_⟩
  · exact rel_self fun v _ => .refl .same v
  · exact rel_self fun g _ => rfl
theorem Lowered.push (lowered : s.Lowered n t) {a b : Frame}
    (frame : a.Related (fun _ => True) (Value.Lowered n) Eq b) : (s.push a).Lowered n (t.push b) := by
  refine ⟨?_, lowered.functions, lowered.frames.push keepsOrder_eq lowered.size frame⟩
  simp only [Store.push, Array.size_push, lowered.size]

/-- Two stores after the same lines since those in `before` and in `before'`. -/
structure LoweredSince (n : Nat) (before before' : Array String) (s t : Store) : Prop where
  lowered : s.Lowered n t
  output : ∃ lines, s.output = before ++ lines ∧ t.output = before' ++ lines

/-- Code that stands where it stood, or `n` rows further down, does the same. -/
def lowering (n : Nat) (before before' : Array String) : Simulation where
  code L := L = .exact ∨ L = .lowered n
  frames := Eq
  closures := Closure.Lowered n
  stores := LoweredSince n before before'
  unfolds lowered := by
    cases lowered with
    | same =>
      refine ⟨.exact, .inl rfl, ?_, Block.Alike.refl Likeness.exact_reflexive _, rfl⟩
      exact List.forall₂_same.mpr fun i _ => Likeness.exact_reflexive.named i
    | lowered _ alike => exact ⟨_, .inr rfl, alike⟩
  lookup since pair _ _ := since.lowered.frames.lookup keepsOrder_eq pair trivial
  bind since pair _ _ values := by
    refine ⟨⟨?_, since.lowered.functions, since.lowered.frames.bind keepsOrder_eq pair _ values⟩, since.output⟩
    simpa [Store.bind] using since.lowered.size
  enter since pair := ⟨since.lowered.size, since.lowered.push ⟨.nil, .some pair⟩, since.output⟩
  apply since closures arguments := by
    refine ⟨since.lowered.size, since.lowered.push ?_, since.output⟩
    exact Closure.frame_related .empty closures.names closures.scope arguments
  close := by
    rintro s t f _ L is js b c since rfl code parameters body
    refine ⟨?_, ⟨since.lowered.size, congrArg (· + 1) since.lowered.functions, since.lowered.frames⟩, since.output⟩
    rw [since.lowered.functions]
    rcases code with rfl | rfl
    · rw [names_same (fun _ _ => id) parameters, body.eq fun _ _ => id]
      exact .same _
    · exact .lowered rfl ⟨parameters, body, rfl⟩
  write line since :=
    ⟨⟨since.lowered.size, since.lowered.functions, since.lowered.frames⟩, Store.write_since line since.output⟩

end Store

/-- Results that are the same but for the rows of functions whose text stands further down. -/
inductive ResultLowered (n : Nat) : Except Error Value → Except Error Value → Prop
  | ok {v w : Value} : v.Lowered n w → ResultLowered n (.ok v) (.ok w)
  | error (cause : EvalError.Cause) {i j : Span} : i = j ∨ i = j.lower n →
    ResultLowered n (.error (.eval ⟨cause, i⟩)) (.error (.eval ⟨cause, j⟩))

/-- What running a text has given, after `lines`, with the text of some functions `n` rows further
    down on the left. -/
structure Execution.LoweredAfter (n : Nat) (lines : List String) (x y : Execution) : Prop where
  result : ResultLowered n x.result y.result
  output : x.output = lines ++ y.output
  store : x.session.store.Lowered n y.session.store

/-- What an evaluation that ends has given. -/
def Outcome.execution : Outcome Value → Option Execution
  | .done v t => some ⟨.ok v, t.output.toList, ⟨t⟩⟩
  | .failed e t => some ⟨.error (.eval e), t.output.toList, ⟨t⟩⟩
  | .tooDeep => none

theorem Session.observe_eq (s : Session) (x : Eval Value) : s.observe x = (x s.store.silence).execution := by
  rw [observe]
  cases x s.store.silence <;> rfl
/-- A program further down, evaluated behind other lines, gives what the program gives after
    those have been forgotten. -/
theorem Program.eval_lowered {n : Nat} {p q : Program} (alike : Statement.AllAlike (.lowered n) p.statements q.statements)
    (depth : Nat) (t : Store) :
    Option.Rel (Execution.LoweredAfter n t.output.toList) (p.eval depth Session.globals t).execution
      (q.eval depth Session.globals t.silence).execution := by
  have start : Store.LoweredSince n t.output #[] t t.silence := ⟨.of_frames rfl rfl, #[], by simp, rfl⟩
  have ends := Simulation.program_evals (S := Store.lowering n t.output #[]) depth (f := Session.globals) rfl
    (.inr rfl) alike t t.silence start
  revert ends
  cases p.eval depth Session.globals t <;> cases q.eval depth Session.globals t.silence <;>
    rintro (⟨values, since⟩ | ⟨cause, spans, since⟩ | _)
  · obtain ⟨lines, left, right⟩ := since.output
    refine .some ⟨.ok values, ?_, since.lowered⟩
    simp [left, right]
  · obtain ⟨lines, left, right⟩ := since.output
    refine .some ⟨.error cause ?_, ?_, since.lowered⟩
    · obtain ⟨_, rfl | rfl, same⟩ := spans
      · exact .inl same
      · exact .inr same
    · simp [left, right]
  · exact .none

end KoreanScript
