import KoreanScript.Proofs.Confinement

/-!
The frames of a session form a forest. Frames and functions may refer to each other in
circles, as a function is bound in the frame that it was made in; but the frame around
a frame was made before it, so the way outward from a frame ends, and what a name means
is found on it.
-/
namespace KoreanScript

namespace Store

/-- A store whose frames lie in earlier ones and bind no functions but those that were made in a
    frame that is there. -/
structure Grounded (s : Store) : Prop where
  outer : s.Layered
  captured {f : FrameId} {frame : Frame} :
    s.frames[f]? = some frame → ∀ e ∈ frame.bindings, ∀ c ∈ e.2.closures, c.scope < s.frames.size

/-- Whether a task can be set in a store: the frame that it begins in is there, and those that the
    functions given to it were made in. -/
def Admits (s : Store) : Task → Prop
  | .expression f _ | .statement f _ | .program f _ | .block f _ => f < s.frames.size
  | .application c vs => s.Holds (.function c :: vs)

/-- All sites allowed, a function is one that was made in a frame that is there. -/
theorem sited_iff {s : Store} {c : Closure} : c.Sited (fun _ => True) s ↔ c.scope < s.frames.size :=
  ⟨fun ⟨_, offers, _⟩ => offers.present,
    fun present => ⟨[], ⟨present, List.forall_mem_nil _⟩, fun _ _ => trivial⟩⟩
theorem holds_iff {s : Store} {vs : List Value} : s.Holds vs ↔ ∀ v ∈ vs, v.Sited (fun _ => True) s :=
  forall₂_congr fun _ _ => forall₂_congr fun _ _ => sited_iff.symm
theorem grounded_iff {s : Store} : s.Grounded ↔ s.Sited fun _ => True := by
  constructor
  · intro ⟨outer, captured⟩
    exact ⟨outer, fun here e member c inside => sited_iff.mpr (captured here e member c inside)⟩
  · intro ⟨layered, bindings⟩
    exact ⟨layered, fun here e member c inside => sited_iff.mp (bindings here e member c inside)⟩
theorem Sound.grounded {s : Store} (sound : s.Sound) : s.Grounded := by
  constructor
  · intro f g frame here
    exact sound.outer here
  · intro f frame here e member
    exact (sound.bindings here e member).closures

end Store

/-- How a task ends; the value of statements is that of the last one or what they return. -/
def Task.outcome (depth : Nat) : Task → Eval Value
  | .expression f e => e.eval (Closure.apply depth) f
  | .statement f a => Signal.result <$> a.eval (Closure.apply depth) f
  | .program f p => p.eval depth f
  | .block f b => Signal.result <$> b.eval (Closure.apply depth) f
  | .application c vs => Closure.apply depth c vs

/-- An end in a grounded store, with a value whose functions were made in frames that are there, or
    with an error. -/
inductive Outcome.Grounded : Outcome Value → Prop
  | done {v : Value} {s : Store} : s.Grounded → s.Holds [v] → Outcome.Grounded (.done v s)
  | failed {e : EvalError} {s : Store} : s.Grounded → Outcome.Grounded (.failed e s)
  | tooDeep : Outcome.Grounded .tooDeep

/-- Wherever it fails, a task ends in a later store, and the functions in its value were made in
    frames that are there. -/
theorem Task.outcome_confined (depth : Nat) {task : Task} {s : Store} (admits : s.Admits task) :
    (task.outcome depth).Confined (fun _ => True) (fun _ => True) s (Value.Sited fun _ => True) := by
  have calls := Closure.apply_confined (N := fun _ => True) depth
  have offers : ∀ f < s.frames.size, s.Offers f [] := fun f present => ⟨present, List.forall_mem_nil _⟩
  cases task with
  | expression f e =>
    exact (Expr.eval_confined calls e (offers f admits) fun _ _ => trivial).imp (fun _ _ => trivial) fun _ _ _ => And.left
  | statement f a =>
    rw [outcome, map_eq_pure_bind]
    refine ((Statement.eval_confined calls a (offers f admits) fun _ _ => trivial).imp (fun _ _ => trivial)
      fun _ _ _ => id).bind fun t signal _ ⟨⟨value, _⟩, _⟩ => ?_
    exact .pure fun _ more => value.mono more
  | program f p =>
    exact (Program.eval_confined depth p (offers f admits) fun _ _ => trivial).imp (fun _ _ => trivial) fun _ _ _ => id
  | block f b =>
    rw [outcome, map_eq_pure_bind]
    refine ((Block.eval_confined calls b (offers f admits) fun _ _ => trivial).imp (fun _ _ => trivial)
      fun _ _ _ => id).bind fun t signal _ ⟨value, _⟩ => ?_
    exact .pure fun _ more => value.mono more
  | application c vs =>
    have values := List.forall_mem_cons.mp (Store.holds_iff.mp admits)
    exact (calls s c vs (Value.only_function_iff.mp values.1) values.2).imp (fun _ _ => trivial) fun _ _ _ => id
/-- A task leaves a grounded store, however it ends. -/
theorem Task.outcome_grounded (depth : Nat) {task : Task} {s : Store} (grounded : s.Grounded)
    (admits : s.Admits task) : (task.outcome depth s).Grounded := by
  have ends := Task.outcome_confined depth admits s (.refl s) (Store.grounded_iff.mp grounded)
  revert ends
  cases task.outcome depth s <;> rintro (⟨_, sited, value⟩ | ⟨_, sited, _⟩ | _)
  · exact .done (Store.grounded_iff.mpr sited) (Store.holds_iff.mpr (List.forall_mem_singleton.mpr value))
  · exact .failed (Store.grounded_iff.mpr sited)
  · exact .tooDeep

/-- In every store that a session comes to, and after every evaluation in a store of this kind,
    also one that fails, each frame lies in one that was made before it, and the functions that
    are bound in frames or given as values were made in frames that are there. So the way outward
    from a frame comes to an end, and a name means what the first frame on it that binds it says. -/
theorem scopes_well_founded :
    (∀ s, Session.initial.Later s → s.store.Grounded ∧ ∀ depth source x v, s.execute depth source = some x →
      x.result = .ok v → x.session.store.Holds [v]) ∧
    (∀ (depth : Nat) (task : Task) (s : Store), s.Grounded → s.Admits task → (task.outcome depth s).Grounded) ∧
    ∀ s : Store, s.Grounded → ∀ f < s.frames.size, (∃ frames, s.Chain f frames) ∧ ∀ frames, s.Chain f frames →
      ∀ name, s.lookup f name = frames.findSome? fun frame => Entries.get? name frame.bindings := by
  refine ⟨?_, ?_, ?_⟩
  · intro s reached
    obtain ⟨sound, inside⟩ := reached.sound
    refine ⟨sound.grounded, fun depth source x v executed given => List.forall_mem_singleton.mpr ?_⟩
    exact ((Session.execute_sound sound inside executed).2.2 v given).closures
  · intro depth task s grounded admits
    exact Task.outcome_grounded depth grounded admits
  · intro s grounded f present
    exact ⟨grounded.outer.chain present, fun frames chain name => chain.lookup_eq grounded.outer name⟩

set_option maxRecDepth 100000 in
/-- A function that is bound in the frame that it was made in and gives itself. -/
theorem scopes_well_founded_circle :
    let c : Closure := ⟨0, [], ⟨[.expression (.identifier ⟨"f", ⟨⟨0, 7⟩, ⟨0, 7⟩⟩⟩)], ⟨⟨0, 6⟩, ⟨0, 8⟩⟩⟩, 0⟩
    let globals : Frame := ⟨[("f", .function c)], none⟩
    let s : Store := ⟨#[globals], 1, #[]⟩
    let t : Store := ⟨#[globals, ⟨[], some 0⟩], 1, #[]⟩
    Session.initial.Later ⟨s⟩ ∧ s.Grounded ∧ s.Holds [.function c] ∧
      ((Task.application c []).outcome 1 s).Grounded ∧
      t.Grounded ∧ t.lookup 1 "f" = some (.function c) := by
  intro c globals s t
  obtain ⟨sessions, tasks, lookups⟩ := scopes_well_founded
  have read : Program.ofSource "f=함수()\x7bf\x7d" = .ok ⟨[.expression (.assignment ⟨"f", ⟨⟨0, 0⟩, ⟨0, 0⟩⟩⟩
      (.function [] c.body ⟨⟨0, 2⟩, ⟨0, 8⟩⟩) ⟨⟨0, 0⟩, ⟨0, 8⟩⟩)], ⟨⟨0, 0⟩, ⟨0, 8⟩⟩⟩ := by cbv
  have ran : Session.initial.execute 1 "f=함수()\x7bf\x7d" = some ⟨.ok (.function c), [], ⟨s⟩⟩ := by
    rw [Session.execute, read]
    cbv
  have reached : Session.initial.Later ⟨s⟩ := .execute 1 _ .now ran
  have grounded : s.Grounded := (sessions ⟨s⟩ reached).1
  have holds : s.Holds [.function c] := (sessions _ .now).2 1 _ _ _ ran rfl
  have ends : ((Task.application c []).outcome 1 s).Grounded := tasks 1 (.application c []) s grounded holds
  have called : (Task.application c []).outcome 1 s = .done (.function c) t := by cbv
  have after : t.Grounded := by
    rw [called] at ends
    cases ends with
    | done grounded _ => exact grounded
  have chain : t.Chain 1 [⟨[], some 0⟩, globals] := .inside rfl rfl (.last rfl rfl)
  exact ⟨reached, grounded, holds, ends, after, ((lookups t after 1 (by decide)).2 _ chain "f").trans (by rfl)⟩

end KoreanScript
