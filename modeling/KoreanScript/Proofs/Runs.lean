import KoreanScript.Evaluation

/-!
What evaluations do to frames. An evaluation runs in one frame, which is the only
one that it binds names in; for everything else it makes a frame, runs in that
until the call or block of the frame is finished, and never comes back to it.
A run has a moment for each name that is bound on the way and for each frame
whose call or block is finished on the way.
-/
namespace KoreanScript

variable {α : Type}

/-- The store that an evaluation ends in, with a value or with an error. -/
def Outcome.store? : Outcome α → Option Store
  | .done _ s | .failed _ s => some s
  | .tooDeep => none

/-- What happens to frames in the course of an evaluation, each time with the store behind it. -/
inductive Moment where
  /-- A name is bound. -/
  | bound (s : Store)
  /-- The call or block that made frame `g` is finished: it gives a value, returns or fails. -/
  | finished (g : FrameId) (s : Store)

def Moment.store : Moment → Store
  | bound s | finished _ s => s

/-- `Runs f s moments t`: an evaluation in frame `f` may lead from `s` to `t` through these moments. -/
inductive Runs : FrameId → Store → List Moment → Store → Prop
  | stop (f : FrameId) (s : Store) : Runs f s [] s
  | assign {f : FrameId} {s t : Store} {moments : List Moment} (name : String) (v : Value) :
    Runs f (s.bind f name v) moments t → Runs f s (.bound (s.bind f name v) :: moments) t
  | close {f : FrameId} {s t : Store} {moments : List Moment} :
    Runs f { s with functions := s.functions + 1 } moments t → Runs f s moments t
  | write {f : FrameId} {s t : Store} {moments : List Moment} (line : String) :
    Runs f (s.write line) moments t → Runs f s moments t
  | activate {f : FrameId} {s t u : Store} {inside moments : List Moment} (frame : Frame) :
    Runs s.next (s.push frame) inside t → Runs f t moments u →
      Runs f s (inside ++ .finished s.next t :: moments) u

theorem Runs.trans {f : FrameId} {s t u : Store} {earlier later : List Moment}
    (first : Runs f s earlier t) (rest : Runs f t later u) : Runs f s (earlier ++ later) u := by
  induction first with
  | stop f s => exact rest
  | assign name v _ ih => exact .assign name v (ih rest)
  | close _ ih => exact .close (ih rest)
  | write line _ ih => exact .write line (ih rest)
  | activate frame inner _ _ ih =>
    rw [List.append_assoc, List.cons_append]
    exact .activate frame inner (ih rest)

end KoreanScript
