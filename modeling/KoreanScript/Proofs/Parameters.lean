import Mathlib
import KoreanScript.Proofs.Settled

/-!
What the body of a function finds in its frame. A parameter has the argument at the last
place where its name stands among the parameters, or the empty value if there is none at
that place, even where a place before it has one; what is no parameter means what it means
where the function was made. So a call does the same with its arguments cut or padded to
as many as there are parameters.
-/
namespace KoreanScript

/-- Whether a name stands at the place `k` among some parameters and at none behind it. -/
structure LastAt (ps : List Identifier) (name : String) (k : Nat) : Prop where
  here : ps[k]?.map Identifier.name = some name
  absent (j : Nat) : k < j → ps[j]?.map Identifier.name ≠ some name

/-- Some arguments, cut or padded with the empty value to `n` of them. -/
def fitted (n : Nat) (vs : List Value) : List Value := vs.take n ++ List.replicate (n - vs.length) .empty

variable {p : Identifier} {ps : List Identifier} {name : String} {k n : Nat} {vs : List Value}

theorem length_fitted (n : Nat) (vs : List Value) : (fitted n vs).length = n := by
  simp only [fitted, List.length_append, List.length_take, List.length_replicate]
  omega
theorem fitted_cons (n : Nat) (v : Value) (vs : List Value) : fitted (n + 1) (v :: vs) = v :: fitted n vs := by
  simp [fitted]
theorem fitted_nil (n : Nat) : fitted (n + 1) [] = .empty :: fitted n [] := by
  simp [fitted, List.replicate_succ]

/-! ### The last place of a name -/

theorem LastAt.zero (absent : p.name ∉ ps.map Identifier.name) : LastAt (p :: ps) p.name 0 := by
  refine ⟨rfl, fun j later same => absent ?_⟩
  obtain ⟨i, rfl⟩ := Nat.exists_eq_succ_of_ne_zero (Nat.ne_of_gt later)
  rw [List.getElem?_cons_succ, ← List.getElem?_map] at same
  exact List.mem_of_getElem? same
theorem LastAt.succ (last : LastAt ps name k) (p : Identifier) : LastAt (p :: ps) name (k + 1) := by
  refine ⟨last.here, fun j later => ?_⟩
  obtain ⟨i, rfl⟩ := Nat.exists_eq_succ_of_ne_zero (Nat.ne_of_gt (Nat.lt_of_le_of_lt (Nat.zero_le _) later))
  exact last.absent i (Nat.lt_of_succ_lt_succ later)
theorem LastAt.of_succ (last : LastAt (p :: ps) name (k + 1)) : LastAt ps name k :=
  ⟨last.here, fun j later => last.absent (j + 1) (Nat.succ_lt_succ later)⟩
theorem LastAt.of_zero (last : LastAt (p :: ps) name 0) : p.name = name ∧ name ∉ ps.map Identifier.name := by
  refine ⟨Option.some.inj last.here, fun member => ?_⟩
  obtain ⟨j, here⟩ := List.mem_iff_getElem?.mp member
  rw [List.getElem?_map] at here
  exact last.absent (j + 1) (Nat.succ_pos j) here
/-- A name that stands among parameters stands at one last place. -/
theorem exists_lastAt (member : name ∈ ps.map Identifier.name) : ∃ k, LastAt ps name k := by
  induction ps with
  | nil => simp at member
  | cons p ps ih =>
    by_cases later : name ∈ ps.map Identifier.name
    · obtain ⟨k, last⟩ := ih later
      exact ⟨k + 1, last.succ p⟩
    · have same : p.name = name := by
        rw [List.map_cons, List.mem_cons] at member
        exact (member.resolve_right later).symm
      subst same
      exact ⟨0, .zero later⟩

/-! ### Binding -/

theorem get?_bindParameters_of_not_mem (absent : name ∉ ps.map Identifier.name) (vs : List Value)
    (es : List (String × Value)) : Entries.get? name (bindParameters ps vs es) = Entries.get? name es := by
  induction ps generalizing vs es with
  | nil => rfl
  | cons p ps ih =>
    rw [List.map_cons, List.mem_cons, not_or] at absent
    rw [bindParameters, ih absent.2, Entries.get?_insert, if_neg (by simpa using Ne.symm absent.1)]
/-- A parameter is bound to the argument at its last place; the bindings before it do not count. -/
theorem get?_bindParameters (last : LastAt ps name k) (vs : List Value) (es : List (String × Value)) :
    Entries.get? name (bindParameters ps vs es) = some (vs[k]?.getD .empty) := by
  induction ps generalizing k vs es with
  | nil => cases last.here
  | cons p ps ih =>
    rw [bindParameters]
    cases k with
    | zero =>
      obtain ⟨rfl, absent⟩ := last.of_zero
      rw [get?_bindParameters_of_not_mem absent, Entries.get?_insert, if_pos BEq.rfl]
      cases vs <;> rfl
    | succ k =>
      rw [ih last.of_succ]
      cases vs <;> rfl
/-- As many arguments as parameters are enough. -/
theorem bindParameters_fitted (ps : List Identifier) (vs : List Value) (es : List (String × Value)) :
    bindParameters ps (fitted ps.length vs) es = bindParameters ps vs es := by
  induction ps generalizing vs es with
  | nil => rfl
  | cons p ps ih =>
    rw [List.length_cons, bindParameters, bindParameters]
    cases vs with
    | nil =>
      rw [fitted_nil]
      exact ih [] _
    | cons v vs =>
      rw [fitted_cons]
      exact ih vs _

/-! ### Frames of calls -/

namespace Store
variable {s : Store} {f g : FrameId}

/-- A new frame hides nothing from the frames that are there. -/
theorem lookup_push_of_lt (before : f < s.frames.size) (frame : Frame) (name : String) :
    (s.push frame).lookup f name = s.lookup f name := by
  rw [lookup, lookup]
  induction f using Nat.strongRecOn with
  | _ f ih =>
    rw [Frame.lookup, Frame.lookup, frames_push_of_lt before]
    cases s.frames[f]? with
    | none => rfl
    | some around =>
      simp only
      cases Entries.get? name around.bindings with
      | some v => rfl
      | none =>
        simp only
        cases around.outer with
        | none => rfl
        | some g =>
          by_cases less : g < f
          · simp only [if_pos less, ih g less (Nat.lt_trans less before)]
          · simp only [if_neg less]
/-- What is not bound in a new frame means what it means in the frame around it. -/
theorem lookup_push_next {bindings : List (String × Value)} (absent : Entries.get? name bindings = none) (f : FrameId) :
    (s.push ⟨bindings, some f⟩).lookup s.next name = s.lookup f name := by
  rw [lookup, Frame.lookup, frames_push_next]
  simp only [absent]
  by_cases before : f < s.next
  · rw [if_pos before]
    exact lookup_push_of_lt before _ name
  · have missing : s.frames[f]? = none := Array.getElem?_eq_none (Nat.not_lt.mp before)
    rw [if_neg before, lookup, Frame.lookup, missing]

end Store

/-- Whether `t` is the store `s` with a new frame in which a call of `c` begins. -/
structure Closure.Begins (c : Closure) (arguments : List Value) (s t : Store) : Prop where
  /-- The new frame binds the parameters and nothing else. -/
  binds : ∃ frame, t.frames[s.next]? = some frame ∧
    ∀ name, (Entries.get? name frame.bindings).isSome ↔ name ∈ c.parameters.map Identifier.name
  /-- A parameter has the argument at the last place where its name stands. -/
  bound (name : String) : name ∈ c.parameters.map Identifier.name →
    ∃ k, LastAt c.parameters name k ∧ t.lookup s.next name = some (arguments[k]?.getD .empty)
  /-- Any other name means what it means where the function was made. -/
  free (name : String) : name ∉ c.parameters.map Identifier.name → t.lookup s.next name = s.lookup c.scope name
  others (g : FrameId) : g ≠ s.next → t.frames[g]? = s.frames[g]?
  new : s.frames[s.next]? = none
  written : t.output = s.output

theorem Closure.begins (c : Closure) (arguments : List Value) (s : Store) :
    c.Begins arguments s (s.push (c.frame arguments)) := by
  have own {name : String} {k : Nat} (last : LastAt c.parameters name k) :
      Entries.get? name (c.frame arguments).bindings = some (arguments[k]?.getD .empty) :=
    get?_bindParameters last arguments []
  have none {name : String} (absent : name ∉ c.parameters.map Identifier.name) :
      Entries.get? name (c.frame arguments).bindings = none :=
    get?_bindParameters_of_not_mem absent arguments []
  refine ⟨⟨_, s.frames_push_next _, fun name => ?_⟩, fun name member => ?_,
    fun name absent => Store.lookup_push_next (none absent) c.scope, fun g other => Store.frames_push_of_ne other _,
    Array.getElem?_eq_none (Nat.le_refl _), rfl⟩
  · by_cases member : name ∈ c.parameters.map Identifier.name
    · obtain ⟨k, last⟩ := exists_lastAt member
      simp [own last, member]
    · simp [none member, member]
  · obtain ⟨k, last⟩ := exists_lastAt member
    refine ⟨k, last, ?_⟩
    rw [Store.lookup, Frame.lookup, Store.frames_push_next]
    simp only [own last]

/-! ### The main result -/

/-- The body of a function starts in a new frame in which each parameter has the argument at its last
    place or the empty value, and everything else means what it means where the function was made.
    So in every store a call gives the same value or error, writes the same and leaves the same in
    all frames if its arguments are cut or padded to as many as there are parameters. -/
theorem Closure.apply_begins (c : Closure) (arguments : List Value) :
    (∀ s, ∃ t, c.Begins arguments s t ∧ ∀ depth, Closure.apply (depth + 1) c arguments s =
      (Signal.result <$> Statement.evalAll (Closure.apply depth) s.next .empty c.body.statements) t) ∧
    (fitted c.parameters.length arguments).length = c.parameters.length ∧
    ∀ depth, Closure.apply depth c (fitted c.parameters.length arguments) = Closure.apply depth c arguments := by
  refine ⟨fun s => ⟨_, c.begins arguments s, fun depth => rfl⟩, length_fitted _ _, fun depth => ?_⟩
  have frame : c.frame (fitted c.parameters.length arguments) = c.frame arguments := by
    rw [Closure.frame, Closure.frame, bindParameters_fitted]
  cases depth with
  | zero => rfl
  | succ depth => rw [Closure.apply, Closure.apply, frame]

/-- A name that stands twice among the parameters, with an argument at its first place alone. -/
theorem Closure.apply_begins_repeated :
    let here : Span := ⟨⟨0, 0⟩, ⟨0, 0⟩⟩
    let c : Closure := ⟨0, [⟨"a", here⟩, ⟨"b", here⟩, ⟨"a", here⟩], ⟨[.expression (.identifier ⟨"a", here⟩)], here⟩, 0⟩
    let s : Store := ⟨#[⟨[("a", .boolean true), ("z", .boolean false)], none⟩], 1, #[]⟩
    (∃ t, c.Begins [.string "x", .string "y"] s t ∧ t.lookup 1 "a" = some .empty ∧
      t.lookup 1 "z" = some (.boolean false)) ∧
      Closure.apply 1 c [.string "x", .string "y", .empty] = Closure.apply 1 c [.string "x", .string "y"] := by
  intro here c s
  obtain ⟨starts, -, same⟩ := c.apply_begins [.string "x", .string "y"]
  obtain ⟨t, begins, -⟩ := starts s
  obtain ⟨k, last, found⟩ := begins.bound "a" (by simp [c])
  have place : k = 2 := by
    match k, last with
    | 0, last => exact absurd rfl (last.absent 2 (by decide))
    | 1, last => exact absurd last.here (by decide)
    | 2, _ => rfl
    | k + 3, last => exact absurd last.here (by simp [c])
  subst place
  refine ⟨⟨t, begins, found, (begins.free "z" (by simp [c])).trans ?_⟩, same 1⟩
  cbv

end KoreanScript
