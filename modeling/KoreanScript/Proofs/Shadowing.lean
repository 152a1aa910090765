import KoreanScript.Proofs.Absence
import KoreanScript.Proofs.Visibility

/-!
Shadowing. To bind a name in a frame changes what the name means in this frame and in
those inside it, as far as no frame on the way outward from them binds the name before
this one is reached. Everything else means what it meant, in every frame.
-/
namespace KoreanScript.Store

/-- The frame around a frame. -/
def outer? (s : Store) (g : FrameId) : Option FrameId := s.frames[g]?.bind Frame.outer
/-- `s.Outward g nearer f`: going outward from frame `g` one passes the frames `nearer` and then
    comes to frame `f`. -/
inductive Outward (s : Store) : FrameId → List FrameId → FrameId → Prop
  | here (f : FrameId) : Outward s f [] f
  | around {f g h : FrameId} {nearer : List FrameId} :
    s.outer? g = some h → Outward s h nearer f → Outward s g (g :: nearer) f
/-- Whether frame `f` is frame `g` or lies around it, and no frame nearer to `g` binds the name. -/
def Shows (s : Store) (f g : FrameId) (name : String) : Prop :=
  ∃ nearer, s.Outward g nearer f ∧ ∀ h ∈ nearer, s.own? h name = none

variable {s : Store} {f g h : FrameId} {n m : String}

theorem Shows.around (outer : s.outer? g = some h) (unbound : s.own? g n = none) (shows : s.Shows f h n) :
    s.Shows f g n := by
  obtain ⟨nearer, outward, absent⟩ := shows
  exact ⟨g :: nearer, .around outer outward, List.forall_mem_cons.mpr ⟨unbound, absent⟩⟩

theorem outer?_bind (s : Store) (f g : FrameId) (name : String) (v : Value) :
    (s.bind f name v).outer? g = s.outer? g := by
  have same := congrArg (fun outer => outer.bind id) (outer_bind s f g name v)
  simp only [Option.bind_map] at same
  exact same
theorem Layered.outer?_lt (layered : s.Layered) (outer : s.outer? g = some h) : h < g := by
  obtain ⟨frame, here, around⟩ := Option.bind_eq_some_iff.mp outer
  exact layered here around
theorem Layered.bind (layered : s.Layered) (f : FrameId) (name : String) (v : Value) : (s.bind f name v).Layered := by
  intro g h frame here around
  refine layered.outer?_lt (g := g) ?_
  rw [← outer?_bind s f g name v, outer?, here, Option.bind_some, around]
/-- A name means what a frame itself binds it to, or else what it means in the frame around it. -/
theorem Layered.lookup_eq (layered : s.Layered) (g : FrameId) (name : String) :
    s.lookup g name = (s.own? g name).or ((s.outer? g).bind fun h => s.lookup h name) := by
  rw [lookup, Frame.lookup, own?, outer?]
  cases here : s.frames[g]? with
  | none => rfl
  | some frame =>
    simp only [Option.bind_some]
    cases Entries.get? name frame.bindings with
    | some v => rfl
    | none =>
      cases around : frame.outer with
      | none => rfl
      | some h => simp only [if_pos (layered here around), Option.none_or, Option.bind_some, lookup]

/-! ### After a binding -/

theorem own?_bind_self (present : f < s.frames.size) (n : String) (v : Value) : (s.bind f n v).own? f n = some v := by
  rw [own?_bind, if_pos ⟨rfl, rfl⟩, Array.getElem?_eq_getElem present]
  rfl
/-- What is bound in a frame is what the name means wherever the frame shows. -/
theorem lookup_bind_of_shows (layered : s.Layered) (present : f < s.frames.size) (shows : s.Shows f g n) (v : Value) :
    (s.bind f n v).lookup g n = some v := by
  obtain ⟨nearer, outward, unbound⟩ := shows
  induction outward with
  | here f => exact lookup_of_own? (own?_bind_self present n v)
  | @around f g h nearer outer _ ih =>
    obtain ⟨none, unbound⟩ := List.forall_mem_cons.mp unbound
    rw [(layered.bind f n v).lookup_eq, outer?_bind, outer, own?_bind]
    split
    · -- If `g` were `f` itself, the binding would be found there.
      next own =>
      obtain ⟨rfl, -⟩ := own
      rw [Array.getElem?_eq_getElem present]
      rfl
    · rw [none, Option.none_or, Option.bind_some]
      exact ih present unbound
/-- A name goes on to mean what it meant if it is not the one bound, or where the frame does not show. -/
theorem lookup_bind_of_hidden (layered : s.Layered) (hidden : m = n → ¬ s.Shows f g n) (v : Value) :
    (s.bind f n v).lookup g m = s.lookup g m := by
  induction g using Nat.strongRecOn with
  | _ g ih =>
    -- Frame `f` shows in itself, so it is not `g` if the name is the one bound.
    have own : (s.bind f n v).own? g m = s.own? g m := by
      rw [own?_bind, if_neg]
      rintro ⟨rfl, rfl⟩
      exact hidden rfl ⟨[], .here g, List.forall_mem_nil _⟩
    rw [(layered.bind f n v).lookup_eq, layered.lookup_eq, outer?_bind, own]
    cases bound : s.own? g m with
    | some w => rfl
    | none =>
      cases outer : s.outer? g with
      | none => rfl
      | some h =>
        refine ih h (layered.outer?_lt outer) fun same shows => ?_
        subst same
        exact hidden rfl (.around outer bound shows)

/-! ### The main result -/

/-- In every forest of frames, each numbered behind the frame around it: once `n` is bound to `v` in
    frame `f`, a name `m` means `v` in frame `g` if it is `n` and `f` is `g` or lies around it with no
    frame that binds `n` nearer to `g`; in every other case it means what it meant before. -/
theorem lookup_after_bind (s : Store) (layered : s.Layered) (f g : FrameId) (present : f < s.frames.size)
    (n m : String) (v : Value) :
    (m = n ∧ s.Shows f g n → (s.bind f n v).lookup g m = some v) ∧
    (¬ (m = n ∧ s.Shows f g n) → (s.bind f n v).lookup g m = s.lookup g m) := by
  constructor
  · rintro ⟨rfl, shows⟩
    exact lookup_bind_of_shows layered present shows v
  · intro other
    exact lookup_bind_of_hidden layered (fun same shows => other ⟨same, shows⟩) v

/-- A name that is bound around two frames and again in one of them. -/
theorem lookup_after_bind_shadowed :
    let s : Store := ⟨#[⟨[], none⟩, ⟨[], some 0⟩, ⟨[("a", .boolean true)], some 1⟩, ⟨[("b", .empty)], some 1⟩], 0, #[]⟩
    s.Layered ∧ 0 < s.frames.size ∧ (s.bind 0 "a" (.string "x")).lookup 3 "a" = some (.string "x") ∧
      (s.bind 0 "a" (.string "x")).lookup 2 "a" = some (.boolean true) := by
  intro s
  have layered : s.Layered := by
    intro f g frame here around
    match f, here with
    | 0, here => cases here; cases around
    | 1, here | 2, here | 3, here => cases here; cases around; decide
  have present : 0 < s.frames.size := by decide
  have shows : s.Shows 0 3 "a" :=
    ⟨[3, 1], .around rfl (.around rfl (.here 0)), by simp [s, own?, Entries.get?]⟩
  have hidden : ¬ s.Shows 0 2 "a" := by
    rintro ⟨_, outward, unbound⟩
    cases outward with
    | around _ _ => cases unbound 2 List.mem_cons_self
  refine ⟨layered, present, ?_, ?_⟩
  · exact (lookup_after_bind s layered 0 3 present "a" "a" (.string "x")).1 ⟨rfl, shows⟩
  · refine ((lookup_after_bind s layered 0 2 present "a" "a" (.string "x")).2 fun both => hidden both.2).trans ?_
    exact lookup_of_own? rfl

end KoreanScript.Store
