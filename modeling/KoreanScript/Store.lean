import KoreanScript.Value

/-!
The frames of variables. A frame is named by the number of frames made before it
and is enclosed by an earlier one or by none. A name means what the nearest frame
that binds it says; binding never reaches into an enclosing frame.
-/
namespace KoreanScript

/-- The variables of one scope and the frame around it. -/
structure Frame where
  bindings : List (String × Value)
  outer : Option FrameId

/-- What evaluation reads and changes: all frames, the number of functions made so
    far, and the lines written. -/
structure Store where
  frames : Array Frame
  functions : Nat
  output : Array String

/-- The value of a name in frame `f` or in the nearest frame around it that binds it. -/
def Frame.lookup (frames : Array Frame) (f : FrameId) (name : String) : Option Value :=
  match frames[f]? with
  | none => none
  | some frame =>
    match Entries.get? name frame.bindings with
    | some v => some v
    | none =>
      match frame.outer with
      | none => none
      | some g => if g < f then lookup frames g name else none
termination_by f

namespace Store

/-- No frames, no functions and nothing written. -/
def initial : Store := ⟨#[], 0, #[]⟩
/-- The name of the next frame. -/
def next (s : Store) : FrameId := s.frames.size
/-- Adds a frame. -/
def push (s : Store) (frame : Frame) : Store := { s with frames := s.frames.push frame }
def lookup (s : Store) (f : FrameId) (name : String) : Option Value := Frame.lookup s.frames f name
/-- Binds a name in frame `f`. -/
def bind (s : Store) (f : FrameId) (name : String) (v : Value) : Store :=
  { s with frames := s.frames.modify f fun frame =>
      { frame with bindings := Entries.insert name v frame.bindings } }
def write (s : Store) (line : String) : Store := { s with output := s.output.push line }
/-- Forgets the lines written. -/
def silence (s : Store) : Store := { s with output := #[] }

end Store
end KoreanScript
