import Mathlib
import KoreanScript.Proofs.Settled

/-!
Frames are isolated. An evaluation changes no frame that was there before it but its
own, and no frame of a call or block that is finished. So what a call or a block has
bound stays as it is, through the rest of the text and through all later texts of
the session.
-/
namespace KoreanScript

/-- Evaluating a program, statement or expression in a frame leaves every other frame that was
    there before as it was, and applying a function or evaluating a block leaves every frame so;
    the last moment of the latter two finishes the frame that they make. What an evaluation makes
    on its way is finished on its way, and ever after as it was then: at each later moment of the
    evaluation and at its end. The same holds of whole sessions, through all texts. -/
theorem frame_isolation :
    (∀ (depth : Nat) (task : Task) (s t : Store), task.run depth s = some t →
      (∀ g < s.frames.size, task.frame? ≠ some g → t.frames[g]? = s.frames[g]?) ∧
      (task.frame? = none → ∃ inside, task.course depth s = inside ++ [.finished s.next t]) ∧
      ((∀ f ∈ task.frame?, f < s.frames.size) → Settled s (task.course depth s) t)) ∧
    ∀ (moments : List Moment) (s : Session), Session.Passes moments s → Settled Session.initial.store moments s.store := by
  refine ⟨fun depth task s t ends => ?_, fun moments s passes => passes.settled⟩
  cases own : task.frame? with
  | some f =>
    have run : Runs f s _ t := task.runs ends (by rw [own]; rintro _ ⟨⟩; rfl)
    exact ⟨fun g before other => run.kept before fun same => other (same ▸ rfl), by rintro ⟨⟩,
      fun present => run.settled (present f rfl)⟩
  | none =>
    -- Such a task runs in any frame, also in one that is not there yet.
    have run : Runs s.next s _ t := task.runs ends (by simp [own])
    obtain ⟨frame, inside, inner, course⟩ := task.runs_within ends own
    refine ⟨fun g before _ => run.kept before (Nat.ne_of_lt before), fun _ => ⟨inside, course⟩, fun _ => ?_⟩
    rw [course]
    exact (inner.settled (s.next_lt_size_push frame)).finish inner.size_lt_of_push

set_option maxRecDepth 100000 in
/-- A call binds `x` in its own frame; a later text binds the name outside of that. -/
theorem frame_isolation_later_text :
    let f : Closure := ⟨0, [], ⟨[.expression (.assignment ⟨"x", ⟨⟨0, 7⟩, ⟨0, 7⟩⟩⟩ (.string "1" ⟨⟨0, 9⟩, ⟨0, 11⟩⟩)
      ⟨⟨0, 7⟩, ⟨0, 11⟩⟩)], ⟨⟨0, 6⟩, ⟨0, 12⟩⟩⟩, 0⟩
    let own : Frame := ⟨[("x", .string "1")], some 0⟩
    let before : Store := ⟨#[⟨[("f", .function f)], none⟩], 1, #[]⟩
    let behind : Store := ⟨#[⟨[("f", .function f)], none⟩, own], 1, #[]⟩
    let after : Store := ⟨#[⟨[("f", .function f), ("x", .string "2")], none⟩, own], 1, #[]⟩
    let call : Task := .application f []
    (behind.frames[0]? = before.frames[0]? ∧ (∃ inside, call.course 1 before = inside ++ [.finished 1 behind]) ∧
      Settled before (call.course 1 before) behind) ∧
    Session.Passes [.bound before, .bound behind, .finished 1 behind, .bound after] ⟨after⟩ ∧
      Settled Session.initial.store [.bound before, .bound behind, .finished 1 behind, .bound after] after := by
  intro f own before behind after call
  have calls : call.run 1 before = some behind := by cbv
  have first : Program.ofSource "f=함수()\x7bx='1'\x7d;f()" = .ok ⟨[.expression (.assignment ⟨"f", ⟨⟨0, 0⟩, ⟨0, 0⟩⟩⟩
      (.function [] f.body ⟨⟨0, 2⟩, ⟨0, 12⟩⟩) ⟨⟨0, 0⟩, ⟨0, 12⟩⟩),
      .expression (.call (.identifier ⟨"f", ⟨⟨0, 14⟩, ⟨0, 14⟩⟩⟩) [] ⟨⟨0, 14⟩, ⟨0, 16⟩⟩)], ⟨⟨0, 0⟩, ⟨0, 16⟩⟩⟩ := by cbv
  have second : Program.ofSource "x='2'" = .ok ⟨[.expression (.assignment ⟨"x", ⟨⟨0, 0⟩, ⟨0, 0⟩⟩⟩
      (.string "2" ⟨⟨0, 2⟩, ⟨0, 4⟩⟩) ⟨⟨0, 0⟩, ⟨0, 4⟩⟩)], ⟨⟨0, 0⟩, ⟨0, 4⟩⟩⟩ := by cbv
  have passes : Session.Passes [.bound before, .bound behind, .finished 1 behind, .bound after] ⟨after⟩ := by
    have ran : Session.initial.execute 1 "f=함수()\x7bx='1'\x7d;f()" = some ⟨.ok (.string "1"), [], ⟨behind⟩⟩ := by
      rw [Session.execute, first]
      cbv
    have reran : Session.execute 1 ⟨behind⟩ "x='2'" = some ⟨.ok (.string "2"), [], ⟨after⟩⟩ := by
      rw [Session.execute, second]
      cbv
    have course : Session.initial.course 1 "f=함수()\x7bx='1'\x7d;f()" =
        [.bound before, .bound behind, .finished 1 behind] := by
      rw [Session.course, first]
      cbv
    have recourse : Session.course 1 ⟨behind⟩ "x='2'" = [.bound after] := by
      rw [Session.course, second]
      cbv
    have passed := Session.Passes.execute 1 _ (.execute 1 _ .start ran) reran
    rwa [course, recourse] at passed
  have isolated := frame_isolation.1 1 call before behind calls
  exact ⟨⟨isolated.1 0 (by decide) (by simp [call, Task.frame?]), isolated.2.1 rfl,
    isolated.2.2 (by simp [call, Task.frame?])⟩, passes, frame_isolation.2 _ _ passes⟩

end KoreanScript
