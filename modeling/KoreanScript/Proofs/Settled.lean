import KoreanScript.Proofs.Course
import KoreanScript.Session

/-!
Frames that are finished. A run changes no frame that was there before it but its
own. So the frame of a call or a block is left alone once that is finished, at each
later moment of the run; and what runs after it, another text of the session too,
leaves it alone as well.
-/
namespace KoreanScript

namespace Store

theorem frames_bind_of_ne {s : Store} {f g : FrameId} (other : g ≠ f) (name : String) (v : Value) :
    (s.bind f name v).frames[g]? = s.frames[g]? := by
  simp [Store.bind, Array.getElem?_modify, Ne.symm other]
theorem size_bind (s : Store) (f : FrameId) (name : String) (v : Value) :
    (s.bind f name v).frames.size = s.frames.size := by
  simp [Store.bind]
theorem outer_bind (s : Store) (f g : FrameId) (name : String) (v : Value) :
    (s.bind f name v).frames[g]?.map Frame.outer = s.frames[g]?.map Frame.outer := by
  simp only [Store.bind, Array.getElem?_modify]
  split
  · rw [Option.map_map]
    rfl
  · rfl
theorem frames_push_next (s : Store) (frame : Frame) : (s.push frame).frames[s.next]? = some frame := by
  simp [Store.push, next]
theorem frames_push_of_ne {s : Store} {g : FrameId} (other : g ≠ s.next) (frame : Frame) :
    (s.push frame).frames[g]? = s.frames[g]? := by
  have behind : g ≠ s.frames.size := other
  rw [push, Array.getElem?_push, if_neg behind]
theorem frames_push_of_lt {s : Store} {g : FrameId} (before : g < s.frames.size) (frame : Frame) :
    (s.push frame).frames[g]? = s.frames[g]? :=
  frames_push_of_ne (Nat.ne_of_lt before) frame
theorem size_push (s : Store) (frame : Frame) : (s.push frame).frames.size = s.frames.size + 1 := by
  simp [Store.push]
/-- The frame that is made is there. -/
theorem next_lt_size_push (s : Store) (frame : Frame) : s.next < (s.push frame).frames.size := by
  rw [size_push]
  exact Nat.lt_succ_self _

end Store

namespace Runs

variable {f g : FrameId} {s t : Store} {moments : List Moment}

/-- Frames are never given up. -/
theorem size_le (run : Runs f s moments t) : s.frames.size ≤ t.frames.size := by
  induction run with
  | stop f s => exact Nat.le_refl _
  | @assign f s t _ name v _ ih => rwa [Store.size_bind] at ih
  | close _ ih => exact ih
  | write _ _ ih => exact ih
  | activate frame _ _ first rest =>
    rw [Store.size_push] at first
    omega
/-- The frames that a call or a block begins with are there when it is finished, and its own. -/
theorem size_lt_of_push {frame : Frame} (run : Runs f (s.push frame) moments t) :
    s.frames.size < t.frames.size := by
  have grown := run.size_le
  rwa [Store.size_push] at grown
/-- A run leaves every frame but its own as it was, at each of its moments and at the end. -/
theorem kept_at (run : Runs f s moments t) (before : g < s.frames.size) (other : g ≠ f) :
    ∀ u ∈ moments.map Moment.store ++ [t], u.frames[g]? = s.frames[g]? := by
  induction run with
  | stop f s => simp
  | @assign f s t moments name v _ ih =>
    have same := Store.frames_bind_of_ne other (s := s) name v
    have later := ih (by rwa [Store.size_bind]) other
    rw [List.map_cons, List.cons_append, List.forall_mem_cons]
    exact ⟨same, fun u inside => (later u inside).trans same⟩
  | close _ ih => exact ih before other
  | write _ _ ih => exact ih before other
  | @activate f s t u inside moments frame inner _ first rest =>
    have pushed : g < (s.push frame).frames.size := by
      rw [Store.size_push]
      exact Nat.lt_succ_of_lt before
    have within : ∀ w ∈ inside.map Moment.store ++ [t], w.frames[g]? = s.frames[g]? := fun w member =>
      (first pushed (Nat.ne_of_lt before) w member).trans (Store.frames_push_of_lt before frame)
    have ended : t.frames[g]? = s.frames[g]? := within t (by simp)
    have behind := rest (Nat.lt_trans before inner.size_lt_of_push) other
    intro w member
    rw [List.map_append, List.map_cons, List.append_assoc, List.cons_append, List.mem_append, List.mem_cons] at member
    rcases member with member | rfl | member
    · exact within w (List.mem_append_left _ member)
    · exact ended
    · exact (behind w member).trans ended
theorem kept (run : Runs f s moments t) (before : g < s.frames.size) (other : g ≠ f) :
    t.frames[g]? = s.frames[g]? :=
  run.kept_at before other t (by simp)

end Runs

/-! ### Frames that are finished -/

/-- If the moment finished a frame, then this frame is in `t` as it was then. -/
def Moment.KeptIn (t : Store) : Moment → Prop
  | bound _ => True
  | finished g s => t.frames[g]? = s.frames[g]?

/-- Moments that lead from `s` to `t` finish all frames made on the way, and no other, and leave each
    as it was when it was finished: at every later moment and at the end. -/
structure Settled (s : Store) (moments : List Moment) (t : Store) : Prop where
  made : ∀ g, (s.frames.size ≤ g ∧ g < t.frames.size) ↔ ∃ u, .finished g u ∈ moments
  later : moments.Pairwise fun m n => m.KeptIn n.store
  last : ∀ m ∈ moments, m.KeptIn t

namespace Settled
variable {f : FrameId} {s t u : Store} {moments rest : List Moment}

/-- Nothing that is finished is touched by what runs in a frame that was there before. -/
theorem kept_at (settled : Settled s moments t) (run : Runs f t rest u) (before : f < s.frames.size) :
    ∀ m ∈ moments, ∀ w ∈ rest.map Moment.store ++ [u], m.KeptIn w := by
  intro m member w behind
  cases m with
  | bound _ => trivial
  | finished g v =>
    obtain ⟨young, there⟩ := (settled.made g).mpr ⟨v, member⟩
    have other : g ≠ f := Nat.ne_of_gt (Nat.lt_of_lt_of_le before young)
    exact (run.kept_at there other w behind).trans (settled.last _ member)
theorem append (settled : Settled s moments t) (run : Runs f t rest u) (before : f < s.frames.size)
    (grown : s.frames.size ≤ t.frames.size) (behind : Settled t rest u) : Settled s (moments ++ rest) u := by
  have kept := settled.kept_at run before
  refine ⟨fun g => ?_, ?_, ?_⟩
  · have first := settled.made g
    have second := behind.made g
    have more := run.size_le
    simp only [List.mem_append, exists_or, ← first, ← second]
    omega
  · refine List.pairwise_append.mpr ⟨settled.later, behind.later, fun m member n after => ?_⟩
    exact kept m member n.store (List.mem_append_left _ (List.mem_map_of_mem after))
  · refine List.forall_mem_append.mpr ⟨fun m member => ?_, behind.last⟩
    exact kept m member u (by simp)
/-- The frame in which something ran is finished with it. -/
theorem finish {frame : Frame} (settled : Settled (s.push frame) moments t) (grown : s.frames.size < t.frames.size) :
    Settled s (moments ++ [.finished s.next t]) t := by
  have own : Moment.KeptIn t (.finished s.next t) := rfl
  refine ⟨fun g => ?_, ?_, ?_⟩
  · have inside := settled.made g
    rw [Store.size_push] at inside
    have here : (∃ u, Moment.finished g u ∈ [Moment.finished s.next t]) ↔ g = s.frames.size := by
      simp [Store.next]
    simp only [List.mem_append, exists_or, here, ← inside]
    omega
  · refine List.pairwise_append.mpr ⟨settled.later, List.pairwise_singleton _ _, fun m member n last => ?_⟩
    rw [List.mem_singleton.mp last]
    exact settled.last m member
  · refine List.forall_mem_append.mpr ⟨settled.last, fun m member => ?_⟩
    rw [List.mem_singleton.mp member]
    exact own

end Settled

/-- A run in a frame that was there before finishes what it makes and leaves it alone then. -/
theorem Runs.settled {f : FrameId} {s t : Store} {moments : List Moment} (run : Runs f s moments t)
    (before : f < s.frames.size) : Settled s moments t := by
  induction run with
  | stop f s => exact ⟨fun g => by simp, .nil, by simp⟩
  | @assign f s t moments name v _ ih =>
    rw [← Store.size_bind s f name v] at before
    obtain ⟨made, later, last⟩ := ih before
    rw [Store.size_bind] at made
    refine ⟨fun g => ?_, .cons (fun _ _ => trivial) later, List.forall_mem_cons.mpr ⟨trivial, last⟩⟩
    simp [made g]
  | close _ ih => exact ⟨(ih before).made, (ih before).later, (ih before).last⟩
  | write _ _ ih => exact ⟨(ih before).made, (ih before).later, (ih before).last⟩
  | @activate f s t u inside moments frame inner outer first rest =>
    have grown := inner.size_lt_of_push
    have finished := (first (s.next_lt_size_push frame)).finish grown
    have all := finished.append outer before (Nat.le_of_lt grown) (rest (Nat.lt_trans before grown))
    rwa [List.append_assoc] at all

namespace Session

/-- `s.Later t`: executing texts leads from the session `s` to `t`. -/
inductive Later (s : Session) : Session → Prop
  | now : Later s s
  | execute {t : Session} {x : Execution} (depth : Nat) (source : String) :
    Later s t → t.execute depth source = some x → Later s x.session

/-- The course of executing a text. -/
def course (depth : Nat) (s : Session) (source : String) : List Moment :=
  match Program.ofSource source with
  | .error _ => []
  | .ok p => p.course depth globals s.store.silence

/-- `Passes moments s`: executing texts leads from the initial session to `s` through these moments. -/
inductive Passes : List Moment → Session → Prop
  | start : Passes [] initial
  | execute {moments : List Moment} {s : Session} {x : Execution} (depth : Nat) (source : String) :
    Passes moments s → s.execute depth source = some x → Passes (moments ++ s.course depth source) x.session

/-- Executing a program is a run in the frame of the globals. -/
theorem runs_execute {depth : Nat} {source : String} {p : Program} {s : Session} {x : Execution}
    (parsed : Program.ofSource source = .ok p) (executed : s.execute depth source = some x) :
    Runs globals s.store.silence (s.course depth source) x.session.store := by
  simp only [course, parsed]
  simp only [execute, parsed, observe] at executed
  refine p.eval_takes depth globals s.store.silence _ ?_
  cases ended : p.eval depth globals s.store.silence with
  | done v t =>
    rw [ended] at executed
    cases executed
    rfl
  | failed e t =>
    rw [ended] at executed
    cases executed
    rfl
  | tooDeep =>
    rw [ended] at executed
    cases executed
/-- What is no program leaves the session as it was. -/
theorem execute_of_error {depth : Nat} {source : String} {e : ParseError} {s : Session} {x : Execution}
    (refused : Program.ofSource source = .error e) (executed : s.execute depth source = some x) :
    x.session = s := by
  simp only [execute, refused] at executed
  cases executed
  rfl
/-- Executing a text is a run in the frame of the globals, or nothing at all. -/
theorem execute_cases {depth : Nat} {source : String} {s : Session} {x : Execution}
    (executed : s.execute depth source = some x) :
    (x.session = s ∧ s.course depth source = []) ∨
      Runs globals s.store.silence (s.course depth source) x.session.store := by
  cases parsed : Program.ofSource source with
  | error e => exact .inl ⟨execute_of_error parsed executed, by simp only [course, parsed]⟩
  | ok p => exact .inr (runs_execute parsed executed)
theorem Later.size_le {s t : Session} (later : s.Later t) :
    s.store.frames.size ≤ t.store.frames.size := by
  induction later with
  | now => exact Nat.le_refl _
  | execute depth source _ executed ih =>
    rcases execute_cases executed with ⟨same, _⟩ | run
    · rwa [same]
    · exact Nat.le_trans ih run.size_le
theorem Passes.later {moments : List Moment} {s : Session} (passes : Passes moments s) : initial.Later s := by
  induction passes with
  | start => exact .now
  | execute depth source _ executed ih => exact .execute depth source ih executed
/-- All texts of a session leave alone what any of them has finished. -/
theorem Passes.settled {moments : List Moment} {s : Session} (passes : Passes moments s) :
    Settled initial.store moments s.store := by
  induction passes with
  | start => exact (Runs.stop globals initial.store).settled (by decide)
  | @execute moments s x depth source earlier executed ih =>
    rcases execute_cases executed with ⟨same, none⟩ | run
    · rwa [same, none, List.append_nil]
    · have grown : initial.store.frames.size ≤ s.store.frames.size := earlier.later.size_le
      have present : globals < initial.store.frames.size := by decide
      -- Only frames count, and forgetting what was written changes none.
      have silenced : Settled initial.store moments s.store.silence := ⟨ih.made, ih.later, ih.last⟩
      exact silenced.append run present grown (run.settled (Nat.lt_of_lt_of_le present grown))

end Session

end KoreanScript
