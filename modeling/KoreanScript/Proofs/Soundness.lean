import KoreanScript.Proofs.Settled

/-!
What values and stores are sound. The functions in a sound value were made in frames
that exist, and its tables have only what can be a key for keys, and none of them
twice. In a sound store all bound values are sound and each frame is enclosed by one
that was made before it. Evaluation keeps this, however it ends.
-/
namespace KoreanScript

namespace Entries
variable {κ υ : Type} [BEq κ]

/-- Whatever an entry has for its value after writing was there before or is written. -/
theorem mem_insert {k : κ} {v : υ} {e : κ × υ} {es : List (κ × υ)} (member : e ∈ insert k v es) :
    e.2 = v ∨ e ∈ es := by
  induction es with
  | nil =>
    rw [insert, List.mem_singleton] at member
    exact .inl (member ▸ rfl)
  | cons first rest ih =>
    rw [insert] at member
    split at member
    · rcases List.mem_cons.mp member with rfl | member
      · exact .inl rfl
      · exact .inr (List.mem_cons_of_mem _ member)
    · rcases List.mem_cons.mp member with rfl | member
      · exact .inr List.mem_cons_self
      · exact (ih member).imp id (List.mem_cons_of_mem _)
/-- Writing adds its key behind all others, unless it is there. -/
theorem keys_insert (k : κ) (v : υ) (es : List (κ × υ)) :
    (insert k v es).map Prod.fst =
      if es.any (·.1 == k) then es.map Prod.fst else es.map Prod.fst ++ [k] := by
  induction es with
  | nil => rfl
  | cons first rest ih =>
    by_cases same : first.1 == k
    · rw [insert, if_pos same, List.any_cons, same, Bool.true_or, if_pos rfl]
      rfl
    · rw [insert, if_neg same, List.map_cons, ih, List.any_cons, Bool.eq_false_iff.mpr same, Bool.false_or]
      split <;> rfl

/-- Keys of which no two are equal stay so when one is written. -/
theorem apart_insert {es : List (κ × υ)} (apart : (es.map Prod.fst).Pairwise fun k l => (k == l) = false) (k : κ) (v : υ) :
    ((insert k v es).map Prod.fst).Pairwise fun k l => (k == l) = false := by
  rw [keys_insert]
  split
  · exact apart
  · next absent =>
    refine List.pairwise_append.mpr ⟨apart, List.pairwise_singleton _ _, ?_⟩
    intro l member m last
    obtain ⟨e, here, rfl⟩ := List.mem_map.mp member
    rw [List.mem_singleton.mp last]
    exact Bool.eq_false_iff.mpr fun same => absent (List.any_eq_true.mpr ⟨e, here, same⟩)
theorem keys_erase (k : κ) (es : List (κ × υ)) : ((erase k es).map Prod.fst).Sublist (es.map Prod.fst) :=
  List.eraseP_sublist.map _

/-- The keys of a table can be keys, and no two of them are the same. -/
structure Lawful (es : Table) : Prop where
  hashable : ∀ k ∈ es.map Prod.fst, k.isKey
  apart : (es.map Prod.fst).Pairwise fun k l => (k == l) = false

theorem Lawful.nil : Lawful [] := ⟨by simp, .nil⟩
theorem Lawful.insert {es : Table} (lawful : Lawful es) {k : Value} (hashable : k.isKey) (v : Value) :
    Lawful (insert k v es) := by
  refine ⟨?_, apart_insert lawful.apart k v⟩
  rw [keys_insert]
  split
  · exact lawful.hashable
  · intro l member
    rcases List.mem_append.mp member with member | member
    · exact lawful.hashable l member
    · rw [List.mem_singleton.mp member]
      exact hashable
theorem Lawful.erase {es : Table} (lawful : Lawful es) (k : Value) : Lawful (erase k es) :=
  ⟨fun l member => lawful.hashable l ((keys_erase k es).subset member), lawful.apart.sublist (keys_erase k es)⟩

end Entries

namespace Value

/-- A value whose functions are all good and whose tables are lawful. -/
inductive Sound (good : Closure → Prop) : Value → Prop
  | number (x : Float) : Sound good (.number x)
  | string (s : String) : Sound good (.string s)
  | boolean (b : Bool) : Sound good (.boolean b)
  | function {c : Closure} : good c → Sound good (.function c)
  | empty : Sound good .empty
  | list {vs : List Value} : (∀ v ∈ vs, Sound good v) → Sound good (.list vs)
  | table {es : Table} : Entries.Lawful es → (∀ e ∈ es, Sound good e.2) → Sound good (.table es)

/-- A sound value whose functions were made in some of the first `n` frames. -/
abbrev SoundBelow (n : Nat) : Value → Prop := Sound fun c => c.scope < n

variable {good : Closure → Prop}

theorem Sound.mono {fine : Closure → Prop} (weaker : ∀ c, good c → fine c) {v : Value} (sound : v.Sound good) :
    v.Sound fine := by
  induction sound with
  | number x => exact .number x
  | string s => exact .string s
  | boolean b => exact .boolean b
  | function here => exact .function (weaker _ here)
  | empty => exact .empty
  | list _ ih => exact .list ih
  | table lawful _ ih => exact .table lawful ih
theorem SoundBelow.le {n m : Nat} (enough : n ≤ m) {v : Value} (sound : v.SoundBelow n) : v.SoundBelow m :=
  Sound.mono (fun _ below => Nat.lt_of_lt_of_le below enough) sound
theorem Sound.elements {vs : List Value} (sound : Sound good (.list vs)) : ∀ v ∈ vs, v.Sound good := by
  cases sound with
  | list elements => exact elements
theorem Sound.lawful {es : Table} (sound : Sound good (.table es)) : Entries.Lawful es := by
  cases sound with
  | table lawful _ => exact lawful
theorem Sound.entries {es : Table} (sound : Sound good (.table es)) : ∀ e ∈ es, e.2.Sound good := by
  cases sound with
  | table _ entries => exact entries
theorem Sound.insert {es : Table} (sound : Sound good (.table es)) {k v : Value} (hashable : k.isKey)
    (value : v.Sound good) : Sound good (.table (Entries.insert k v es)) := by
  refine .table (sound.lawful.insert hashable v) fun e member => ?_
  rcases Entries.mem_insert member with written | member
  · rw [written]
    exact value
  · exact sound.entries e member
theorem Sound.erase {es : Table} (sound : Sound good (.table es)) (k : Value) :
    Sound good (.table (Entries.erase k es)) :=
  .table (sound.lawful.erase k) fun e member => sound.entries e (List.mem_of_mem_eraseP member)

end Value

/-! ### Operators and builtins -/

section
variable {good : Closure → Prop} {v w u : Value}

theorem PrefixOperator.compute?_sound {op : PrefixOperator} (computed : op.compute? v = some w) :
    w.Sound good := by
  unfold PrefixOperator.compute? at computed
  split at computed
  · cases computed
    exact .number _
  · cases computed
    exact .number _
  · cases computed
    exact .boolean _
  · cases computed
theorem InfixOperator.compute?_sound {op : InfixOperator} (computed : op.compute? v w = some u) :
    u.Sound good := by
  have truth : ∀ o : Option Bool, o.map Value.boolean = some u → u.Sound good := by
    intro o mapped
    obtain ⟨b, _, rfl⟩ := Option.map_eq_some_iff.mp mapped
    exact .boolean b
  unfold InfixOperator.compute? at computed
  split at computed
  · split at computed
    · cases computed
      exact .number _
    · exact truth _ computed
  · exact truth _ computed
  · split at computed
    · exact truth _ computed
    · cases computed
  · cases computed
theorem InfixOperator.apply_sound {op : InfixOperator} (applied : op.apply v w = .ok u) : u.Sound good := by
  unfold InfixOperator.apply at applied
  split at applied
  · next computed =>
    cases applied
    exact InfixOperator.compute?_sound computed
  · split at applied <;> cases applied

namespace Builtin
variable {vs : List Value} {es : Table} {k : Value}

theorem answer_insertAt_sound (elements : ∀ v ∈ vs, v.Sound good) (value : v.Sound good)
    (answered : answer .insert [.list vs, k, v] = .ok w) : w.Sound good := by
  rw [answer_insertAt] at answered
  cases found : index (vs.length + 1) k with
  | error r =>
    rw [found] at answered
    cases answered
  | ok n =>
    rw [found] at answered
    cases answered
    refine .list fun u member => ?_
    rcases (List.mem_insertIdx (Nat.le_of_lt_succ n.isLt)).mp member with rfl | member
    · exact value
    · exact elements u member
theorem answer_removeAt_sound (elements : ∀ v ∈ vs, v.Sound good)
    (answered : answer .remove [.list vs, k] = .ok w) : w.Sound good := by
  rw [answer_removeAt] at answered
  cases found : index vs.length k with
  | error r =>
    rw [found] at answered
    cases answered
  | ok n =>
    rw [found] at answered
    cases answered
    exact .list fun u member => elements u (List.mem_of_mem_eraseIdx member)
theorem answer_findAt_sound (elements : ∀ v ∈ vs, v.Sound good)
    (answered : answer .find [.list vs, k] = .ok w) : w.Sound good := by
  rw [answer_findAt] at answered
  cases found : index vs.length k with
  | error r =>
    rw [found] at answered
    cases answered
  | ok n =>
    rw [found] at answered
    cases answered
    exact elements _ (List.get_mem vs n)
theorem answer_insertKey_sound (table : Value.Sound good (.table es)) (value : v.Sound good)
    (answered : answer .insert [.table es, k, v] = .ok w) : w.Sound good := by
  by_cases hashable : k.isKey
  · simp only [answer_insertKey, checkKey, if_pos hashable] at answered
    cases answered
    exact table.insert hashable value
  · simp only [answer_insertKey, checkKey, if_neg hashable] at answered
    cases answered
theorem answer_removeKey_sound (table : Value.Sound good (.table es))
    (answered : answer .remove [.table es, k] = .ok w) : w.Sound good := by
  by_cases hashable : k.isKey
  · simp only [answer_removeKey, checkKey, if_pos hashable] at answered
    cases found : Entries.get? k es with
    | none =>
      rw [found] at answered
      cases answered
    | some v =>
      rw [found] at answered
      cases answered
      exact table.erase k
  · simp only [answer_removeKey, checkKey, if_neg hashable] at answered
    cases answered
theorem answer_findKey_sound (table : Value.Sound good (.table es))
    (answered : answer .find [.table es, k] = .ok w) : w.Sound good := by
  by_cases hashable : k.isKey
  · simp only [answer_findKey, checkKey, if_pos hashable] at answered
    cases found : Entries.get? k es with
    | none =>
      rw [found] at answered
      cases answered
    | some v =>
      rw [found] at answered
      cases answered
      obtain ⟨l, member⟩ := Entries.mem_of_get? found
      exact table.entries _ member
  · simp only [answer_findKey, checkKey, if_neg hashable] at answered
    cases answered
/-- What a builtin makes of sound arguments is sound. -/
theorem answer_sound {b : Builtin} (arguments : ∀ v ∈ vs, v.Sound good) (answered : b.answer vs = .ok w) :
    w.Sound good := by
  cases b with
  | write =>
    cases answered
    exact .empty
  | length =>
    rcases vs with _ | ⟨v, _ | ⟨k, rest⟩⟩
    · cases answered
    · cases v with
      | string _ | list _ | table _ =>
        cases answered
        exact .number _
      | number _ | boolean _ | function _ | empty => cases answered
    · cases v <;> cases answered
  | insert =>
    rcases vs with _ | ⟨v, _ | ⟨k, _ | ⟨u, _ | ⟨more, rest⟩⟩⟩⟩
    · cases answered
    · cases v <;> cases answered
    · cases v with
      | list us =>
        cases answered
        refine .list fun u member => ?_
        rcases List.mem_append.mp member with member | member
        · exact (arguments _ List.mem_cons_self).elements u member
        · exact arguments u (List.mem_cons_of_mem _ member)
      | table _ | number _ | string _ | boolean _ | function _ | empty => cases answered
    · cases v with
      | list us => exact answer_insertAt_sound (arguments _ (by simp)).elements (arguments u (by simp)) answered
      | table es => exact answer_insertKey_sound (arguments _ (by simp)) (arguments u (by simp)) answered
      | number _ | string _ | boolean _ | function _ | empty => cases answered
    · cases v <;> cases answered
  | remove =>
    rcases vs with _ | ⟨v, _ | ⟨k, _ | ⟨more, rest⟩⟩⟩
    · cases answered
    · cases v <;> cases answered
    · cases v with
      | list us => exact answer_removeAt_sound (arguments _ (by simp)).elements answered
      | table es => exact answer_removeKey_sound (arguments _ (by simp)) answered
      | number _ | string _ | boolean _ | function _ | empty => cases answered
    · cases v <;> cases answered
  | find =>
    rcases vs with _ | ⟨v, _ | ⟨k, _ | ⟨more, rest⟩⟩⟩
    · cases answered
    · cases v <;> cases answered
    · cases v with
      | list us => exact answer_findAt_sound (arguments _ (by simp)).elements answered
      | table es => exact answer_findKey_sound (arguments _ (by simp)) answered
      | number _ | string _ | boolean _ | function _ | empty => cases answered
    · cases v <;> cases answered

end Builtin
end

/-! ### Stores -/

/-- A frame that may stand behind the first `n` frames of a sound store. -/
structure Frame.SoundBelow (n : Nat) (frame : Frame) : Prop where
  outer : ∀ g ∈ frame.outer, g < n
  bindings : ∀ e ∈ frame.bindings, e.2.SoundBelow n

theorem Frame.SoundBelow.le {n m : Nat} (enough : n ≤ m) {frame : Frame} (fits : frame.SoundBelow n) :
    frame.SoundBelow m :=
  ⟨fun g around => Nat.lt_of_lt_of_le (fits.outer g around) enough,
    fun e member => (fits.bindings e member).le enough⟩

namespace Store

section
variable {s : Store} {f g : FrameId} {name : String} {v : Value} {frame : Frame}

/-- After a binding each frame lies where it lay, and its entries were there or are the new one. -/
theorem frames_bind_cases (here : (s.bind f name v).frames[g]? = some frame) :
    ∃ before, s.frames[g]? = some before ∧ frame.outer = before.outer ∧
      ∀ e ∈ frame.bindings, e.2 = v ∨ e ∈ before.bindings := by
  by_cases other : g = f
  · subst other
    simp only [Store.bind, Array.getElem?_modify, if_pos, Option.map_eq_some_iff] at here
    obtain ⟨before, known, rfl⟩ := here
    exact ⟨before, known, rfl, fun e => Entries.mem_insert⟩
  · rw [frames_bind_of_ne other] at here
    exact ⟨frame, here, rfl, fun e => .inr⟩
theorem frames_push_cases {pushed : Frame} (here : (s.push pushed).frames[g]? = some frame) :
    (g = s.frames.size ∧ frame = pushed) ∨ s.frames[g]? = some frame := by
  rw [Store.push, Array.getElem?_push] at here
  split at here
  · next own => exact .inl ⟨own, (Option.some.inj here).symm⟩
  · exact .inr here
/-- Whatever a name means is bound in some frame. -/
theorem exists_of_lookup (found : s.lookup f name = some v) :
    ∃ (g : FrameId) (frame : Frame), s.frames[g]? = some frame ∧ ∃ e ∈ frame.bindings, e.2 = v := by
  rw [Store.lookup] at found
  induction f using Nat.strongRecOn with
  | _ f ih =>
    rw [Frame.lookup] at found
    cases here : s.frames[f]? with
    | none => simp [here] at found
    | some frame =>
      simp only [here] at found
      cases own : Entries.get? name frame.bindings with
      | some w =>
        rw [own] at found
        cases found
        obtain ⟨name, member⟩ := Entries.mem_of_get? own
        exact ⟨f, frame, here, _, member, rfl⟩
      | none =>
        simp only [own] at found
        cases around : frame.outer with
        | none => simp [around] at found
        | some g =>
          simp only [around] at found
          split at found
          · next less => exact ih g less found
          · cases found

end

/-- A store in which frames are enclosed by earlier ones and bind nothing but sound values. -/
structure Sound (s : Store) : Prop where
  outer {f g : FrameId} {frame : Frame} : s.frames[f]? = some frame → frame.outer = some g → g < f
  bindings {f : FrameId} {frame : Frame} :
    s.frames[f]? = some frame → ∀ e ∈ frame.bindings, e.2.SoundBelow s.frames.size

theorem Sound.initial : initial.Sound := ⟨by simp [Store.initial], by simp [Store.initial]⟩

variable {s : Store} (sound : s.Sound)
include sound

theorem Sound.close : Sound { s with functions := s.functions + 1 } := ⟨sound.outer, sound.bindings⟩
theorem Sound.write (line : String) : (s.write line).Sound := ⟨sound.outer, sound.bindings⟩
theorem Sound.silence : s.silence.Sound := ⟨sound.outer, sound.bindings⟩
theorem Sound.bind (f : FrameId) (name : String) {v : Value} (value : v.SoundBelow s.frames.size) :
    (s.bind f name v).Sound := by
  constructor
  · intro g h frame here around
    obtain ⟨before, known, outer, _⟩ := frames_bind_cases here
    exact sound.outer known (outer.symm.trans around)
  · intro g frame here e member
    rw [size_bind]
    obtain ⟨before, known, _, entries⟩ := frames_bind_cases here
    rcases entries e member with written | member
    · rw [written]
      exact value
    · exact sound.bindings known e member
theorem Sound.push {frame : Frame} (fits : frame.SoundBelow s.frames.size) : (s.push frame).Sound := by
  constructor
  · intro f g a here around
    rcases frames_push_cases here with ⟨rfl, rfl⟩ | here
    · exact fits.outer g around
    · exact sound.outer here around
  · intro f a here e member
    have grown : s.frames.size ≤ (s.push frame).frames.size := by
      rw [size_push]
      exact Nat.le_succ _
    rcases frames_push_cases here with ⟨rfl, rfl⟩ | here
    · exact (fits.bindings e member).le grown
    · exact (sound.bindings here e member).le grown
/-- Whatever a name means is sound. -/
theorem Sound.lookup {f : FrameId} {name : String} {v : Value} (found : s.lookup f name = some v) :
    v.SoundBelow s.frames.size := by
  obtain ⟨g, frame, here, e, member, rfl⟩ := exists_of_lookup found
  exact sound.bindings here e member

end Store
end KoreanScript
