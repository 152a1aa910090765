import Mathlib
import KoreanScript.Proofs.Preservation
import KoreanScript.Proofs.Twins

/-!
What a call depends on. A function reaches the frames that it and its arguments
were made in, the frames around those, and the frames of the functions that are
bound in any of them. As long as these frames bind the same, the function does the
same, whatever else has happened to the store; it has no memory of its own.
-/
namespace KoreanScript

mutual
/-- The functions in a value. -/
def Value.closures : Value → List Closure
  | .function c => [c]
  | .list vs => Value.closuresAll vs
  | .table es => Value.closuresEntries es
  | .number _ | .string _ | .boolean _ | .empty => []
def Value.closuresAll : List Value → List Closure
  | [] => []
  | v :: vs => v.closures ++ Value.closuresAll vs
def Value.closuresEntries : List (Value × Value) → List Closure
  | [] => []
  | (k, v) :: es => k.closures ++ v.closures ++ Value.closuresEntries es
end

namespace Value
variable {good : Closure → Prop} {c : Closure}

theorem mem_closuresAll {vs : List Value} : c ∈ closuresAll vs ↔ ∃ v ∈ vs, c ∈ v.closures := by
  induction vs with
  | nil => simp [closuresAll]
  | cons v vs ih => simp [closuresAll, ih]
theorem mem_closuresEntries {es : Table} :
    c ∈ closuresEntries es ↔ ∃ e ∈ es, c ∈ e.1.closures ∨ c ∈ e.2.closures := by
  induction es with
  | nil => simp [closuresEntries]
  | cons e es ih =>
    rw [closuresEntries, List.mem_append, List.mem_append, ih]
    simp
/-- There is no function in a key. -/
theorem closures_of_isKey {v : Value} (hashable : v.isKey) : v.closures = [] := by
  cases v with
  | number _ | string _ | boolean _ => rw [closures]
  | function _ | empty | list _ | table _ => cases hashable
theorem Sound.closures {v : Value} (sound : v.Sound good) : ∀ c ∈ v.closures, good c := by
  induction sound with
  | number _ | string _ | boolean _ | empty => simp [Value.closures]
  | function here => simpa [Value.closures] using here
  | list _ ih =>
    intro c member
    rw [Value.closures, mem_closuresAll] at member
    obtain ⟨v, element, inside⟩ := member
    exact ih v element c inside
  | table lawful _ ih =>
    intro c member
    rw [Value.closures, mem_closuresEntries] at member
    obtain ⟨e, entry, inside | inside⟩ := member
    · rw [closures_of_isKey (lawful.hashable e.1 (List.mem_map_of_mem entry))] at inside
      cases inside
    · exact ih e entry c inside

mutual
/-- A value stands in for itself if the functions in it do. -/
theorem Related.self {κ : Closure → Closure → Prop} : ∀ v : Value, (∀ c ∈ v.closures, κ c c) → v.Related κ v
  | .number x, _ => .number x
  | .string s, _ => .string s
  | .boolean b, _ => .boolean b
  | .empty, _ => .empty
  | .function c, holds => .function (holds c (by simp [closures]))
  | .list vs, holds => .list (Related.self_all vs (by simpa only [closures] using holds))
  | .table es, holds => .table (Related.self_entries es (by simpa only [closures] using holds))
theorem Related.self_all {κ : Closure → Closure → Prop} : ∀ vs : List Value, (∀ c ∈ closuresAll vs, κ c c) →
    List.Forall₂ (Related κ) vs vs
  | [], _ => .nil
  | v :: vs, holds => by
    rw [closuresAll, List.forall_mem_append] at holds
    exact .cons (Related.self v holds.1) (Related.self_all vs holds.2)
theorem Related.self_entries {κ : Closure → Closure → Prop} : ∀ es : List (Value × Value),
    (∀ c ∈ closuresEntries es, κ c c) → List.Forall₂ (EntryRelated κ) es es
  | [], _ => .nil
  | (k, v) :: es, holds => by
    rw [closuresEntries, List.forall_mem_append, List.forall_mem_append] at holds
    exact .cons (.mk (Related.self k holds.1.1) (Related.self v holds.1.2)) (Related.self_entries es holds.2)
end

end Value

namespace Store

/-- The frames that values reach: those that the functions in them were made in, the frames
    around them, and those of the functions that are bound in them. -/
inductive Reaches (s : Store) (vs : List Value) : FrameId → Prop
  | captured {v : Value} {c : Closure} : v ∈ vs → c ∈ v.closures → Reaches s vs c.scope
  | outer {f g : FrameId} {frame : Frame} :
    Reaches s vs f → s.frames[f]? = some frame → frame.outer = some g → Reaches s vs g
  | bound {f : FrameId} {frame : Frame} {name : String} {v : Value} {c : Closure} :
    Reaches s vs f → s.frames[f]? = some frame → Entries.get? name frame.bindings = some v → c ∈ v.closures →
      Reaches s vs c.scope

/-- The functions in values were made in frames that exist. -/
def Holds (s : Store) (vs : List Value) : Prop := ∀ v ∈ vs, ∀ c ∈ v.closures, c.scope < s.frames.size

/-- Nothing that is reached in a sound store dangles. -/
theorem Sound.reaches_lt {s : Store} (sound : s.Sound) {vs : List Value} (holds : s.Holds vs) {f : FrameId}
    (reached : s.Reaches vs f) : f < s.frames.size := by
  induction reached with
  | captured member inside => exact holds _ member _ inside
  | outer _ here around ih => exact Nat.lt_trans (sound.outer here around) ih
  | bound _ here found inside _ =>
    obtain ⟨name, member⟩ := Entries.mem_of_get? found
    exact (sound.bindings here _ member).closures _ inside

/-- `s.Later t`: evaluations may lead from `s` to `t`, whatever they are. -/
inductive Later (s : Store) : Store → Prop
  | now : Later s s
  | bind {t : Store} (f : FrameId) (name : String) (v : Value) : Later s t → Later s (t.bind f name v)
  | push {t : Store} (frame : Frame) : Later s t → Later s (t.push frame)
  | close {t : Store} : Later s t → Later s { t with functions := t.functions + 1 }
  | write {t : Store} (line : String) : Later s t → Later s (t.write line)
  | silence {t : Store} : Later s t → Later s t.silence

theorem Later.trans {s t u : Store} (first : s.Later t) (rest : t.Later u) : s.Later u := by
  induction rest with
  | now => exact first
  | bind f name v _ ih => exact ih.bind f name v
  | push frame _ ih => exact ih.push frame
  | close _ ih => exact ih.close
  | write line _ ih => exact ih.write line
  | silence _ ih => exact ih.silence
theorem Later.size_le {s t : Store} (later : s.Later t) : s.frames.size ≤ t.frames.size := by
  induction later with
  | now => exact Nat.le_refl _
  | bind f name v _ ih => rwa [size_bind]
  | push frame _ ih =>
    rw [size_push]
    exact Nat.le_succ_of_le ih
  | close _ ih | write _ _ ih | silence _ ih => exact ih
/-- The frame around a frame stays the same. -/
theorem Later.outer_kept {s t : Store} (later : s.Later t) {f : FrameId} (before : f < s.frames.size) :
    t.frames[f]?.map Frame.outer = s.frames[f]?.map Frame.outer := by
  induction later with
  | now => rfl
  | bind g name v _ ih => rw [outer_bind, ih]
  | push frame later ih => rw [frames_push_of_lt (Nat.lt_of_lt_of_le before later.size_le), ih]
  | close _ ih | write _ _ ih | silence _ ih => exact ih

end Store

/-- A run leads to a later store. -/
theorem Runs.later {f : FrameId} {s t : Store} {moments : List Moment} (run : Runs f s moments t) : s.Later t := by
  induction run with
  | stop f s => exact .now
  | assign name v _ ih => exact (Store.Later.now.bind _ name v).trans ih
  | close _ ih => exact Store.Later.now.close.trans ih
  | write line _ ih => exact (Store.Later.now.write line).trans ih
  | activate frame _ _ first rest => exact ((Store.Later.now.push frame).trans first).trans rest

/-! ### One store and a later one -/

section
variable {L : Likeness} {ρ : FrameId → FrameId → Prop} (reflexive : L.Reflexive)
include reflexive

theorem Closure.Alike.refl (c : Closure) (related : ρ c.scope c.scope) : c.Alike L ρ c :=
  ⟨List.forall₂_same.mpr fun i _ => reflexive.named i, Block.Alike.refl reflexive c.body, related⟩

theorem Value.Alike.refl (v : Value) (related : ∀ c ∈ v.closures, ρ c.scope c.scope) : v.Alike L ρ v :=
  (Related.self v fun c inside => Closure.Alike.refl reflexive c (related c inside)).alike

end

namespace Store
variable {s t : Store} {vs : List Value}

/-- What is reached, and what is yet to be made, keeps its order. -/
theorem shift_order {reached : Nat → Prop} {n m f g f' g' : Nat} (present : ∀ f, reached f → f < n ∧ f < m)
    (pair : (f = g ∧ reached f) ∨ ∃ k, f = n + k ∧ g = m + k)
    (pair' : (f' = g' ∧ reached f') ∨ ∃ k, f' = n + k ∧ g' = m + k) : f < f' ↔ g < g' := by
  rcases pair with ⟨rfl, known⟩ | ⟨k, rfl, rfl⟩ <;> rcases pair' with ⟨rfl, known'⟩ | ⟨k', rfl, rfl⟩
  · exact Iff.rfl
  · have := present f known
    omega
  · have := present f' known'
    omega
  · omega
/-- The frames that are reached stand in for themselves, and later ones for each other in the
    order in which they will be made. -/
def pairing (s t : Store) (vs : List Value)
    (present : ∀ f, s.Reaches vs f → f < s.frames.size ∧ f < t.frames.size) : Pairing where
  likeness := .exact
  frames f g := (f = g ∧ s.Reaches vs f) ∨ ∃ k, f = s.frames.size + k ∧ g = t.frames.size + k
  left := s
  right := t
  order pair pair' := shift_order present pair pair'
  fresh k := .inr ⟨k, rfl, rfl⟩

/-- Whether the frames that values reach in `s` bind the same in `t`. -/
def Agrees (s t : Store) (vs : List Value) : Prop :=
  ∀ f, s.Reaches vs f → ∃ a b, s.frames[f]? = some a ∧ t.frames[f]? = some b ∧
    ∀ name, Entries.get? name a.bindings = Entries.get? name b.bindings

theorem Agrees.present (agrees : s.Agrees t vs) (f : FrameId) (reached : s.Reaches vs f) :
    f < s.frames.size ∧ f < t.frames.size := by
  obtain ⟨a, b, left, right, _⟩ := agrees f reached
  exact ⟨(Array.getElem?_eq_some_iff.mp left).1, (Array.getElem?_eq_some_iff.mp right).1⟩
/-- Frames that are the same bind the same. -/
theorem Sound.agrees (sound : s.Sound) (holds : s.Holds vs)
    (kept : ∀ f, s.Reaches vs f → t.frames[f]? = s.frames[f]?) : s.Agrees t vs := by
  intro f reached
  obtain ⟨frame, here⟩ : ∃ frame, s.frames[f]? = some frame :=
    ⟨_, Array.getElem?_eq_getElem (sound.reaches_lt holds reached)⟩
  exact ⟨frame, frame, here, (kept f reached).trans here, fun _ => rfl⟩
/-- Values are like themselves where nothing that they reach has changed. -/
theorem Agrees.values (agrees : s.Agrees t vs) :
    List.Forall₂ (pairing s t vs agrees.present).Values vs vs := by
  refine List.forall₂_same.mpr fun v member => Value.Alike.refl Likeness.exact_reflexive v fun c inside => ?_
  exact .inl ⟨rfl, .captured member inside⟩
theorem Agrees.stores (agrees : s.Agrees t vs) (later : s.Later t) :
    (pairing s t vs agrees.present).Stores s t := by
  refine ⟨⟨0, rfl, rfl⟩, ?_, ⟨#[], by simp [pairing], by simp [pairing]⟩⟩
  rintro f g (⟨rfl, reached⟩ | ⟨k, rfl, rfl⟩)
  · obtain ⟨a, b, left, right, same⟩ := agrees f reached
    have outer := later.outer_kept (agrees.present f reached).1
    rw [left, right, Option.map_some, Option.map_some, Option.some.injEq] at outer
    rw [left, right]
    refine .some ⟨?_, ?_⟩
    · intro name _
      rw [← same name]
      refine rel_self fun v found => Value.Alike.refl Likeness.exact_reflexive v fun c inside => ?_
      exact .inl ⟨rfl, .bound reached left found inside⟩
    · rw [outer]
      exact rel_self fun g around => .inl ⟨rfl, .outer reached left around⟩
  · rw [Array.getElem?_eq_none (Nat.le_add_right _ k), Array.getElem?_eq_none (Nat.le_add_right _ k)]
    exact .none

end Store

/-- Two evaluations that start in `s` and in `t` end in the same way: both with values of one
    text or both with one error, after writing the same lines. -/
inductive Outcome.Match (s t : Store) : Outcome Value → Outcome Value → Prop
  | done {v w : Value} {a b : Store} (lines : Array String) :
    v.render = w.render → a.output = s.output ++ lines → b.output = t.output ++ lines →
      Outcome.Match s t (.done v a) (.done w b)
  | failed (e : EvalError) {a b : Store} (lines : Array String) :
    a.output = s.output ++ lines → b.output = t.output ++ lines →
      Outcome.Match s t (.failed e a) (.failed e b)
  | tooDeep : Outcome.Match s t .tooDeep .tooDeep

/-- Applying a function to arguments in a later store ends as in the earlier one if no frame that
    they reach binds anything else. -/
theorem Closure.apply_match {c : Closure} {arguments : List Value} {s t : Store} (later : s.Later t)
    (agrees : s.Agrees t (.function c :: arguments)) (depth : Nat) :
    Outcome.Match s t (c.apply depth arguments s) (c.apply depth arguments t) := by
  have values := agrees.values
  cases values with
  | cons own values =>
    cases own with
    | function alike =>
      have ends := Pairing.apply_evals depth alike values s t (agrees.stores later)
      revert ends
      cases Closure.apply depth c arguments s <;> cases Closure.apply depth c arguments t <;>
        rintro (⟨alike, stores⟩ | ⟨cause, spans, stores⟩ | _)
      · obtain ⟨lines, left, right⟩ := stores.output
        exact .done lines alike.render_eq left right
      · obtain ⟨lines, left, right⟩ := stores.output
        obtain ⟨_, rfl, same⟩ := spans
        cases same
        exact .failed _ lines left right
      · exact .tooDeep

/-- `Applies depth f e s c vs t`: evaluating the call `e` in frame `f` leads from `s` to the
    application of the function `c` to the arguments `vs` in `t`. -/
inductive Applies (depth : Nat) (f : FrameId) : Expr → Store → Closure → List Value → Store → Prop
  | call {e : Expr} {es : List Expr} {span : Span} {s r t : Store} {c : Closure} {vs : List Value} :
    e.builtin? = none → e.eval (Closure.apply depth) f s = .done (.function c) r →
      Expr.evalAll (Closure.apply depth) f es r = .done vs t → Applies depth f (.call e es span) s c vs t

/-- A call ends as the application that it leads to. -/
theorem Applies.eval_eq {depth : Nat} {f : FrameId} {e : Expr} {s t : Store} {c : Closure} {vs : List Value}
    (applies : Applies depth f e s c vs t) :
    e.eval (Closure.apply depth) f s = c.apply depth vs t := by
  cases applies with
  | call user callee arguments =>
    rw [Expr.eval, user]
    simp only [Eval.bind_apply, callee, arguments]

/-- What an evaluation makes of a store is a later one. -/
theorem Task.later {depth : Nat} {task : Task} {s t : Store} (ends : task.run depth s = some t) : s.Later t := by
  cases own : task.frame? with
  | some f =>
    have run : Runs f s _ t := task.runs ends (by rw [own]; rintro _ ⟨⟩; rfl)
    exact run.later
  | none =>
    have run : Runs 0 s _ t := task.runs ends (by simp [own])
    exact run.later
theorem Session.Later.store {s t : Session} (later : s.Later t) : s.store.Later t.store := by
  induction later with
  | now => exact .now
  | execute depth source _ executed ih =>
    rcases execute_cases executed with ⟨same, _⟩ | run
    · rwa [same]
    · exact ih.silence.trans run.later

/-- A function does what it does by the frames that it and its arguments reach. Whatever is
    evaluated between two applications, the outcome is the same if these frames bind the same,
    wherever the calls stand; so nothing matters that is bound in a frame that is not reached,
    and applying a function twice in a row has one outcome. -/
theorem call_depends_on_reach (c : Closure) (arguments : List Value) :
    (∀ s t : Store, s.Later t → s.Agrees t (.function c :: arguments) → ∀ depth,
      Outcome.Match s t (c.apply depth arguments s) (c.apply depth arguments t)) ∧
    (∀ (depth : Nat) (task : Task) (s t : Store), task.run depth s = some t → s.Later t) ∧
    (∀ s t : Session, Session.initial.Later s → s.Later t → s.store.Sound ∧ s.store.Later t.store) ∧
    (∀ (depth : Nat) (f g : FrameId) (d e : Expr) (r s t u : Store), Applies depth f d r c arguments s →
      Applies depth g e t c arguments u → s.Later u → s.Agrees u (.function c :: arguments) →
        Outcome.Match s u (d.eval (Closure.apply depth) f r) (e.eval (Closure.apply depth) g t)) ∧
    ∀ s : Store, s.Sound → s.Holds (.function c :: arguments) → ∀ depth,
      (∀ f name v, ¬ s.Reaches (.function c :: arguments) f →
        Outcome.Match s (s.bind f name v) (c.apply depth arguments s) (c.apply depth arguments (s.bind f name v))) ∧
      ∀ t, (c.apply depth arguments s).store? = some t →
        Outcome.Match s t (c.apply depth arguments s) (c.apply depth arguments t) := by
  refine ⟨?_, ?_, ?_, ?_, ?_⟩
  · intro s t later agrees depth
    exact Closure.apply_match later agrees depth
  · intro depth task s t ends
    exact task.later ends
  · intro s t reached later
    exact ⟨reached.sound.1, later.store⟩
  · intro depth f g d e r s t u first second later agrees
    rw [first.eval_eq, second.eval_eq]
    exact Closure.apply_match later agrees depth
  intro s sound holds depth
  constructor
  · intro f name v apart
    refine Closure.apply_match (Store.Later.now.bind f name v) (sound.agrees holds fun g reached => ?_) depth
    have other : g ≠ f := fun same => apart (same ▸ reached)
    exact Store.frames_bind_of_ne other name v
  · intro t ends
    -- An application runs in any frame, also in one that is not there.
    have run := Closure.apply_takes depth s.next c arguments s t ends
    refine Closure.apply_match run.later (sound.agrees holds fun g reached => ?_) depth
    have inside := sound.reaches_lt holds reached
    exact run.kept inside (Nat.ne_of_lt inside)

/-- A function that gives the global `x` does so whatever another frame binds that name to. -/
theorem call_depends_on_reach_global :
    let span : Span := ⟨⟨0, 0⟩, ⟨0, 0⟩⟩
    let c : Closure := ⟨0, [], ⟨[.expression (.identifier ⟨"x", span⟩)], span⟩, Session.globals⟩
    let s : Store := Store.initial.push ⟨[("x", .boolean true)], none⟩
    let t : Store := s.push ⟨[("x", .boolean false)], none⟩
    s.Later t ∧ s.Agrees t [.function c] ∧ Outcome.Match s t (c.apply 1 [] s) (c.apply 1 [] t) ∧
      (∃ u, c.apply 1 [] s = .done (.boolean true) u) ∧ ∃ u, c.apply 1 [] t = .done (.boolean true) u := by
  intro span c s t
  have later : s.Later t := Store.Later.now.push _
  have agrees : s.Agrees t [.function c] := by
    have alone : ∀ f, s.Reaches [.function c] f → f = Session.globals := by
      intro f reached
      induction reached with
      | captured member inside =>
        rw [List.mem_singleton.mp member, Value.closures, List.mem_singleton] at inside
        rw [inside]
      | outer _ here around ih =>
        rw [ih] at here
        cases here
        cases around
      | bound _ here found inside ih =>
        rw [ih] at here
        cases here
        obtain ⟨name, member⟩ := Entries.mem_of_get? found
        cases List.mem_singleton.mp member
        cases inside
    intro f reached
    rw [alone f reached]
    exact ⟨_, _, rfl, rfl, fun _ => rfl⟩
  refine ⟨later, agrees, (call_depends_on_reach c []).1 s t later agrees 1, ⟨s.push ⟨[], some 0⟩, ?_⟩,
    ⟨t.push ⟨[], some 0⟩, ?_⟩⟩
  · cbv
  · cbv

end KoreanScript
