import KoreanScript.Proofs.Settled

/-!
What is bound where. A frame that is there stays there, in the same frame, and the names
that it binds stay bound, whatever is evaluated; so what a name means may change but not
that it means something. In a store whose frames lie in earlier ones the way outward from
a frame comes to an end, and a name means what the first frame on this way gives it.
-/
namespace KoreanScript

namespace Entries
variable {κ υ : Type} [BEq κ] [LawfulBEq κ] {k l : κ} {es : List (κ × υ)}

theorem isSome_get?_insert (k : κ) (v : υ) (present : (get? l es).isSome) :
    (get? l (insert k v es)).isSome := by
  rw [get?_insert]
  split
  · rfl
  · exact present
theorem isSome_get?_insert_self (k : κ) (v : υ) (es : List (κ × υ)) : (get? k (insert k v es)).isSome := by
  rw [get?_insert, if_pos (beq_self_eq_true k)]
  rfl

end Entries

/-- Parameters are bound, and what was bound before them stays so. -/
theorem isSome_bindParameters {name : String} : ∀ (ps : List Identifier) (vs : List Value)
    (bindings : List (String × Value)), name ∈ ps.map Identifier.name ∨ (Entries.get? name bindings).isSome →
      (Entries.get? name (bindParameters ps vs bindings)).isSome
  | [], _, _, known => by
    rw [bindParameters]
    exact known.resolve_left (by simp)
  | p :: ps, vs, bindings, known => by
    rw [bindParameters]
    refine isSome_bindParameters ps _ _ ?_
    rcases known with parameter | bound
    · rw [List.map_cons, List.mem_cons] at parameter
      rcases parameter with rfl | later
      · exact .inr (Entries.isSome_get?_insert_self _ _ _)
      · exact .inl later
    · exact .inr (Entries.isSome_get?_insert _ _ bound)

/-- A frame in the same frame, in which all names are bound that were. -/
structure Frame.Grows (a b : Frame) : Prop where
  outer : b.outer = a.outer
  bindings (name : String) : (Entries.get? name a.bindings).isSome → (Entries.get? name b.bindings).isSome

theorem Frame.Grows.refl (a : Frame) : a.Grows a := ⟨rfl, fun _ => id⟩

namespace Store

/-- A later store: all frames are there that were, and have only grown. -/
def Grows (s t : Store) : Prop :=
  ∀ ⦃f : FrameId⦄ ⦃a : Frame⦄, s.frames[f]? = some a → ∃ b, t.frames[f]? = some b ∧ a.Grows b

namespace Grows
variable {s t u : Store}

theorem refl (s : Store) : s.Grows s := fun _ a here => ⟨a, here, .refl a⟩
theorem of_frames (same : t.frames = s.frames) : s.Grows t := fun _ a here => ⟨a, same ▸ here, .refl a⟩
theorem trans (first : s.Grows t) (rest : t.Grows u) : s.Grows u := by
  intro f a here
  obtain ⟨b, there, grown⟩ := first here
  obtain ⟨c, still, more⟩ := rest there
  exact ⟨c, still, more.outer.trans grown.outer, fun name bound => more.bindings name (grown.bindings name bound)⟩
theorem bind (s : Store) (f : FrameId) (name : String) (v : Value) : s.Grows (s.bind f name v) := by
  intro g a here
  by_cases other : g = f
  · subst other
    refine ⟨{ a with bindings := Entries.insert name v a.bindings }, ?_, rfl, fun _ => Entries.isSome_get?_insert _ _⟩
    simp [Store.bind, Array.getElem?_modify, here]
  · exact ⟨a, (frames_bind_of_ne other name v).trans here, .refl a⟩
theorem push (s : Store) (frame : Frame) : s.Grows (s.push frame) := by
  intro g a here
  have before := (Array.getElem?_eq_some_iff.mp here).1
  exact ⟨a, (frames_push_of_lt before frame).trans here, .refl a⟩
theorem lt_size (grows : s.Grows t) {f : FrameId} (before : f < s.frames.size) : f < t.frames.size := by
  obtain ⟨b, there, _⟩ := grows (Array.getElem?_eq_getElem before)
  exact (Array.getElem?_eq_some_iff.mp there).1
/-- What means something goes on to mean something. -/
theorem lookup (grows : s.Grows t) {f : FrameId} {name : String} (known : (s.lookup f name).isSome) :
    (t.lookup f name).isSome := by
  rw [Store.lookup] at known ⊢
  induction f using Nat.strongRecOn with
  | _ f ih =>
    rw [Frame.lookup] at known ⊢
    cases here : s.frames[f]? with
    | none => simp [here] at known
    | some a =>
      obtain ⟨b, there, outer, bindings⟩ := grows here
      simp only [here, there] at known ⊢
      cases own : Entries.get? name b.bindings with
      | some v => rfl
      | none =>
        have unbound : Entries.get? name a.bindings = none := by
          cases before : Entries.get? name a.bindings with
          | none => rfl
          | some v => simpa [before, own] using bindings name
        simp only [unbound, outer] at known ⊢
        cases around : a.outer with
        | none => simp [around] at known
        | some g =>
          simp only [around] at known ⊢
          split
          · next less =>
            rw [if_pos less] at known
            exact ih g less known
          · next more => simp [more] at known
/-- A run leaves bound what is bound. -/
theorem of_runs {f : FrameId} {moments : List Moment} (run : Runs f s moments t) : s.Grows t := by
  induction run with
  | stop f s => exact refl s
  | @assign f s _ _ name v _ ih => exact (bind s f name v).trans ih
  | close _ ih | write line _ ih => exact (of_frames rfl).trans ih
  | @activate _ s _ _ _ _ frame _ _ inner ih => exact ((push s frame).trans inner).trans ih

end Grows

/-- Frame `f` is there, and all of some names mean something in it. -/
structure Offers (s : Store) (f : FrameId) (names : List String) : Prop where
  present : f < s.frames.size
  known : ∀ name ∈ names, (s.lookup f name).isSome

namespace Offers
variable {s t : Store} {f : FrameId} {names : List String}

theorem mono (offers : s.Offers f names) (grows : s.Grows t) : t.Offers f names :=
  ⟨grows.lt_size offers.present, fun name member => grows.lookup (offers.known name member)⟩
/-- A name that is bound is one of those that mean something. -/
theorem bind (offers : s.Offers f names) (name : String) (v : Value) :
    (s.bind f name v).Offers f (name :: names) := by
  have grown := offers.mono (.bind s f name v)
  refine ⟨grown.present, List.forall_mem_cons.mpr ⟨?_, grown.known⟩⟩
  obtain ⟨frame, here⟩ : ∃ frame, s.frames[f]? = some frame := ⟨_, Array.getElem?_eq_getElem offers.present⟩
  have there : (s.bind f name v).frames[f]? = some { frame with bindings := Entries.insert name v frame.bindings } := by
    simp [Store.bind, Array.getElem?_modify, here]
  rw [lookup, Frame.lookup, there]
  simp [Entries.get?_insert]
/-- In a new frame mean something what is bound in it and what means something around it. -/
theorem push (offers : s.Offers f names) {bindings : List (String × Value)} {own : List String}
    (bound : ∀ name ∈ own, (Entries.get? name bindings).isSome) :
    (s.push ⟨bindings, some f⟩).Offers s.next (own ++ names) := by
  have grown := offers.mono (.push s ⟨bindings, some f⟩)
  refine ⟨s.next_lt_size_push _, fun name member => ?_⟩
  rw [lookup, Frame.lookup, frames_push_next]
  simp only
  cases found : Entries.get? name bindings with
  | some v => rfl
  | none =>
    have less : f < s.next := offers.present
    simp only [if_pos less]
    rcases List.mem_append.mp member with own | outer
    · have present := bound name own
      rw [found] at present
      cases present
    · exact grown.known name outer

end Offers

/-! ### The way outward -/

/-- `s.Chain f frames`: going outward from frame `f` one passes `frames` and then there is no frame
    around the last of them. -/
inductive Chain (s : Store) : FrameId → List Frame → Prop
  | last {f : FrameId} {frame : Frame} : s.frames[f]? = some frame → frame.outer = none → Chain s f [frame]
  | inside {f g : FrameId} {frame : Frame} {frames : List Frame} :
    s.frames[f]? = some frame → frame.outer = some g → Chain s g frames → Chain s f (frame :: frames)

/-- Each frame lies in one that was made before it, or in none. -/
def Layered (s : Store) : Prop :=
  ∀ ⦃f g : FrameId⦄ ⦃frame : Frame⦄, s.frames[f]? = some frame → frame.outer = some g → g < f

/-- The way outward comes to an end. -/
theorem Layered.chain {s : Store} (layered : s.Layered) {f : FrameId} (present : f < s.frames.size) :
    ∃ frames, s.Chain f frames := by
  induction f using Nat.strongRecOn with
  | _ f ih =>
    obtain ⟨frame, here⟩ : ∃ frame, s.frames[f]? = some frame := ⟨_, Array.getElem?_eq_getElem present⟩
    cases around : frame.outer with
    | none => exact ⟨[frame], .last here around⟩
    | some g =>
      have less := layered here around
      obtain ⟨frames, chain⟩ := ih g less (Nat.lt_trans less present)
      exact ⟨frame :: frames, .inside here around chain⟩
/-- A name means what the first frame on the way outward gives it. -/
theorem Chain.lookup_eq {s : Store} (layered : s.Layered) {f : FrameId} {frames : List Frame} (chain : s.Chain f frames)
    (name : String) : s.lookup f name = frames.findSome? fun frame => Entries.get? name frame.bindings := by
  rw [lookup]
  induction chain with
  | @last f frame here around =>
    rw [Frame.lookup, here]
    simp only [around, List.findSome?_cons, List.findSome?_nil]
    cases Entries.get? name frame.bindings <;> rfl
  | @inside f g frame frames here around _ ih =>
    rw [Frame.lookup, here]
    simp only [around, if_pos (layered here around), List.findSome?_cons, ih]
    cases Entries.get? name frame.bindings <;> rfl

end Store
end KoreanScript
