import KoreanScript.Proofs.FrameRelation
import KoreanScript.Proofs.Simulation

/-!
Evaluations in two stores whose frames stand in for each other. Which frames do is
fixed from the start: the frames to come are paired in the order in which they will
be made, so that nothing has to be renamed on the way. That is a simulation, so
evaluations of trees that are alike do the same in such stores.
-/
namespace KoreanScript

/-- Where two evaluations start, what trees are alike in them, and which frames stand in
    for each other. -/
structure Pairing where
  likeness : Likeness
  frames : FrameId → FrameId → Prop
  left : Store
  right : Store
  /-- Which of two frames was made first is the same on both sides. -/
  order {f g f' g' : FrameId} : frames f g → frames f' g' → (f < f' ↔ g < g')
  /-- Frames that are yet to be made stand in for each other in their order. -/
  fresh (k : Nat) : frames (left.frames.size + k) (right.frames.size + k)

namespace Pairing
variable (P : Pairing)

/-- Values that are alike. -/
abbrev Values : Value → Value → Prop := Value.Alike P.likeness P.frames
/-- Functions that are alike. -/
abbrev Closures : Closure → Closure → Prop := Closure.Alike P.likeness P.frames

/-- Frames that are alike. -/
abbrev Frames : Frame → Frame → Prop := Frame.Related P.likeness.names P.Values P.frames

/-- Stores that the two evaluations may have reached at the same time. -/
structure Stores (s t : Store) : Prop where
  grown : ∃ k, s.frames.size = P.left.frames.size + k ∧ t.frames.size = P.right.frames.size + k
  frames : s.FramesRelated P.likeness.names P.Values P.frames t
  output : ∃ lines, s.output = P.left.output ++ lines ∧ t.output = P.right.output ++ lines

variable {P} {f g : FrameId}

theorem keepsOrder : KeepsOrder P.frames := fun _ _ _ _ => P.order

namespace Stores
variable {s t : Store} (twins : P.Stores s t)
include twins

theorem next : P.frames s.next t.next := by
  obtain ⟨k, left, right⟩ := twins.grown
  rw [Store.next, Store.next, left, right]
  exact P.fresh k
theorem bind (pair : P.frames f g) (name : String) {v w : Value} (values : P.Values v w) :
    P.Stores (s.bind f name v) (t.bind g name w) := by
  refine ⟨?_, twins.frames.bind keepsOrder pair name values, twins.output⟩
  simpa [Store.bind] using twins.grown
theorem push {a b : Frame} (alike : P.Frames a b) : P.Stores (s.push a) (t.push b) := by
  refine ⟨?_, twins.frames.push keepsOrder twins.next alike, twins.output⟩
  obtain ⟨k, left, right⟩ := twins.grown
  refine ⟨k + 1, ?_, ?_⟩
  · simp only [Store.push, Array.size_push, left, Nat.add_assoc]
  · simp only [Store.push, Array.size_push, right, Nat.add_assoc]
theorem close : P.Stores { s with functions := s.functions + 1 } { t with functions := t.functions + 1 } :=
  ⟨twins.grown, twins.frames, twins.output⟩
theorem write (line : String) : P.Stores (s.write line) (t.write line) :=
  ⟨twins.grown, twins.frames, Store.write_since line twins.output⟩

end Stores

/-! ### Evaluation -/

theorem Frames.apply {c d : Closure} (alike : P.Closures c d) {vs ws : List Value}
    (arguments : List.Forall₂ P.Values vs ws) : P.Frames (c.frame vs) (d.frame ws) :=
  Closure.frame_related .empty (alike.parameters.imp fun _ _ named => named.name) alike.scope arguments

/-- Stores that two evaluations may have reached at the same time are a simulation. -/
def simulation (P : Pairing) : Simulation where
  code L := L = P.likeness
  frames := P.frames
  closures := P.Closures
  stores := P.Stores
  unfolds alike := ⟨_, rfl, alike⟩
  lookup := by
    rintro s t f g _ name twins pair rfl counts
    rw [← Value.alike_eq_related]
    exact twins.frames.lookup keepsOrder pair counts
  bind twins pair _ _ values := twins.bind pair _ values.alike
  enter twins pair := ⟨twins.next, twins.push ⟨.nil, .some pair⟩⟩
  apply twins alike arguments := ⟨twins.next, twins.push (.apply alike (Value.Related.alike_all arguments))⟩
  close := by
    rintro s t f g _ is js b c twins pair rfl parameters body
    exact ⟨⟨parameters, body, pair⟩, twins.close⟩
  write line twins := twins.write line

/-- Functions that are alike do the same to like arguments. -/
theorem apply_evals (depth : Nat) {c d : Closure} (alike : P.Closures c d) {vs ws : List Value}
    (arguments : List.Forall₂ P.Values vs ws) :
    P.simulation.Evals P.Values (Closure.apply depth c vs) (Closure.apply depth d ws) := by
  rw [Values, Value.alike_eq_related] at *
  exact P.simulation.apply_evals depth c d vs ws alike arguments
/-- Programs that are alike do the same. -/
theorem program_evals (depth : Nat) (pair : P.frames f g) {p q : Program} (alike : p.Alike P.likeness q) :
    P.simulation.Evals P.Values (p.eval depth f) (q.eval depth g) := by
  rw [Values, Value.alike_eq_related]
  exact Simulation.program_evals depth pair rfl alike.statements

end Pairing
end KoreanScript
