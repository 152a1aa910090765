import KoreanScript.Proofs.Provenance
import KoreanScript.Proofs.Sites
import KoreanScript.Proofs.Visibility

/-!
Evaluation fails only at the sites of its code. Whichever functions it applies, wherever
they were made: as long as the sites of all functions in a store are among some sites, in
view of what is bound where they were made, this remains so, and every error arises at one
of them. With it go what the functions of a store were made in, which are frames that are
there, and the names that are bound for certain.
-/
namespace KoreanScript

variable {α β : Type} {N M : Site → Prop} {s t : Store}

/-! ### Functions, values and stores -/

/-- A function that was made in a frame that is there, with no sites in its body but those of `N`,
    given what is bound in that frame. -/
def Closure.Sited (N : Site → Prop) (s : Store) (c : Closure) : Prop :=
  ∃ known, s.Offers c.scope known ∧ ∀ x ∈ c.body.sites (c.parameters.map Identifier.name ++ known), N x

/-- A value with such functions only. -/
abbrev Value.Sited (N : Site → Prop) (s : Store) : Value → Prop := Value.Only (Closure.Sited N s)

theorem Value.Sited.mono (grows : s.Grows t) {v : Value} (sited : v.Sited N s) : v.Sited N t :=
  Only.mono (fun _ ⟨known, offers, within⟩ => ⟨known, offers.mono grows, within⟩) sited
theorem Value.Sited.weaken (weaker : ∀ x, N x → M x) {v : Value} (sited : v.Sited N s) : v.Sited M s :=
  Only.mono (fun _ ⟨known, offers, within⟩ => ⟨known, offers, fun x member => weaker x (within x member)⟩) sited

namespace Store

/-- A store whose frames lie in earlier ones and bind no functions but those with sites in `N`. -/
structure Sited (N : Site → Prop) (s : Store) : Prop where
  layered : s.Layered
  bindings {f : FrameId} {frame : Frame} :
    s.frames[f]? = some frame → ∀ e ∈ frame.bindings, e.2.Sited N s

namespace Sited

theorem initial : Store.initial.Sited N := ⟨by simp [Layered, Store.initial], by simp [Store.initial]⟩

variable (sited : s.Sited N)
include sited

theorem weaken (weaker : ∀ x, N x → M x) : s.Sited M :=
  ⟨sited.layered, fun here e member => (sited.bindings here e member).weaken weaker⟩
theorem of_frames (same : t.frames = s.frames) : t.Sited N := by
  have grows : s.Grows t := .of_frames same
  constructor
  · intro f g frame here
    rw [same] at here
    exact sited.layered here
  · intro f frame here e member
    rw [same] at here
    exact (sited.bindings here e member).mono grows
theorem lookup {f : FrameId} {name : String} {v : Value} (found : s.lookup f name = some v) : v.Sited N s := by
  obtain ⟨g, frame, here, e, member, rfl⟩ := exists_of_lookup found
  exact sited.bindings here e member
theorem bind (f : FrameId) (name : String) {v : Value} (value : v.Sited N s) : (s.bind f name v).Sited N := by
  constructor
  · intro g h frame here around
    obtain ⟨before, known, outer, _⟩ := frames_bind_cases here
    exact sited.layered known (outer.symm.trans around)
  · intro g frame here e member
    obtain ⟨before, known, _, entries⟩ := frames_bind_cases here
    rcases entries e member with written | member
    · rw [written]
      exact value.mono (.bind s f name v)
    · exact (sited.bindings known e member).mono (.bind s f name v)
theorem push {bindings : List (String × Value)} {o : Option FrameId} (outer : ∀ f ∈ o, f < s.frames.size)
    (values : ∀ e ∈ bindings, e.2.Sited N s) : (s.push ⟨bindings, o⟩).Sited N := by
  constructor
  · intro f g frame here around
    rcases frames_push_cases here with ⟨rfl, rfl⟩ | here
    · exact outer g around
    · exact sited.layered here around
  · intro f frame here e member
    rcases frames_push_cases here with ⟨rfl, rfl⟩ | here
    · exact (values e member).mono (.push s _)
    · exact (sited.bindings here e member).mono (.push s _)

end Sited
end Store

/-! ### Evaluations -/

namespace Eval

/-- An end in a later store with sites in `N`: with a result that `R` allows there, or with an
    error that `F` allows. -/
inductive ConfinedEnd (N : Site → Prop) (F : EvalError → Prop) (s : Store) (R : Store → α → Prop) : Outcome α → Prop
  | done {a : α} {t : Store} : s.Grows t → t.Sited N → R t a → ConfinedEnd N F s R (.done a t)
  | failed {e : EvalError} {t : Store} : s.Grows t → t.Sited N → F e → ConfinedEnd N F s R (.failed e t)
  | tooDeep : ConfinedEnd N F s R .tooDeep

/-- Whatever store later than `s` it starts in, if that has sites in `N`, the evaluation has such
    an end. -/
def Confined (N : Site → Prop) (F : EvalError → Prop) (s : Store) (R : Store → α → Prop) (x : Eval α) : Prop :=
  ∀ t, s.Grows t → t.Sited N → ConfinedEnd N F t R (x t)

variable {F G : EvalError → Prop} {R : Store → α → Prop} {R' : Store → β → Prop}

theorem ConfinedEnd.trans (grows : s.Grows t) {o : Outcome α} (ends : ConfinedEnd N F t R o) : ConfinedEnd N F s R o := by
  cases ends with
  | done more sited result => exact .done (grows.trans more) sited result
  | failed more sited allowed => exact .failed (grows.trans more) sited allowed
  | tooDeep => exact .tooDeep

namespace Confined

theorem pure {a : α} (result : ∀ t, s.Grows t → R t a) : (Pure.pure a : Eval α).Confined N F s R :=
  fun t grows sited => .done (.refl t) sited (result t grows)
theorem fail {cause : EvalError.Cause} {span : Span} (allowed : F ⟨cause, span⟩) :
    (Eval.fail cause span : Eval α).Confined N F s R :=
  fun t _ sited => .failed (.refl t) sited allowed
theorem bind {x : Eval α} {k : α → Eval β} (first : x.Confined N F s R)
    (rest : ∀ t a, s.Grows t → R t a → (k a).Confined N F t R') : (x >>= k).Confined N F s R' := by
  intro t grows sited
  rw [bind_apply]
  have ends := first t grows sited
  revert ends
  cases x t <;> rintro (⟨more, sited, result⟩ | ⟨more, sited, allowed⟩ | _)
  · exact (rest _ _ (grows.trans more) result _ (.refl _) sited).trans more
  · exact .failed more sited allowed
  · exact .tooDeep
/-- More errors may be allowed, and less be said of the result. -/
theorem imp {Q : Store → α → Prop} {x : Eval α} (confined : x.Confined N F s R) (allows : ∀ e, F e → G e)
    (implies : ∀ t a, s.Grows t → R t a → Q t a) : x.Confined N G s Q := by
  intro t grows sited
  have ends := confined t grows sited
  revert ends
  cases x t <;> rintro (⟨more, sited, result⟩ | ⟨more, sited, allowed⟩ | _)
  · exact .done more sited (implies _ _ (grows.trans more) result)
  · exact .failed more sited (allows _ allowed)
  · exact .tooDeep
/-- What a frame offers, it offers ever after. -/
theorem offered {x : Eval α} (confined : x.Confined N F s R) {f : FrameId} {known : List String}
    (offers : s.Offers f known) : x.Confined N F s fun t a => R t a ∧ t.Offers f known :=
  confined.imp (fun _ => id) fun _ _ grows result => ⟨result, offers.mono grows⟩
theorem write (line : String) : (Eval.write line).Confined N F s fun _ _ => True :=
  fun t _ sited => .done (.refl t) (sited.of_frames rfl) trivial

variable {f : FrameId} {known : List String} (offers : s.Offers f known)
include offers

theorem assign (name : String) {v : Value} (value : v.Sited N s) :
    (Eval.assign f name v).Confined N F s fun t _ => t.Offers f (name :: known) :=
  fun t grows sited => .done (.bind t f name v) (sited.bind f name (value.mono grows)) ((offers.mono grows).bind name v)
/-- A frame that is entered offers what is bound in it and what the frame around it offers. -/
theorem enter {bindings : List (String × Value)} {own : List String} (values : ∀ e ∈ bindings, e.2.Sited N s)
    (bound : ∀ name ∈ own, (Entries.get? name bindings).isSome) :
    (Eval.enter ⟨bindings, some f⟩).Confined N F s fun t g => t.Offers g (own ++ known) := by
  intro t grows sited
  refine .done (.push t _) (sited.push ?_ fun e member => (values e member).mono grows) ((offers.mono grows).push bound)
  rintro _ ⟨⟩
  exact grows.lt_size offers.present
theorem close {is : List Identifier} {b : Block} (within : ∀ x ∈ b.sites (is.map Identifier.name ++ known), N x) :
    (Eval.close is b f).Confined N F s (Value.Sited N) := by
  intro t grows sited
  exact .done (.refl t) (sited.of_frames rfl) (.function ⟨known, offers.mono grows, within⟩)

end Confined
end Eval

open Eval (Confined)

/-- Errors that arise at some of the sites. -/
def EvalError.At (N : Site → Prop) (e : EvalError) : Prop := ∃ x, N x ∧ x.Explains e

/-- A name has a value where it is known; elsewhere its site explains the error. -/
theorem Eval.Confined.lookup {f : FrameId} {known : List String} (offers : s.Offers f known) {i : Identifier}
    (site : N (.name known i)) : (Eval.lookup f i).Confined N (EvalError.At N) s (Value.Sited N) := by
  intro t grows sited
  rw [Eval.lookup]
  cases found : t.lookup f i.name with
  | some v => exact .done (.refl t) sited (sited.lookup found)
  | none =>
    refine .failed (.refl t) sited ⟨_, site, .name fun member => ?_⟩
    have bound := (offers.mono grows).known i.name member
    rw [found] at bound
    cases bound

/-- The signal is no return, or one at one of the spans. -/
def Signal.From (spans : List Span) : Signal → Prop
  | .value _ => True
  | .giveBack _ span => span ∈ spans

theorem Signal.From.mono {as bs : List Span} (more : ∀ i ∈ as, i ∈ bs) {signal : Signal} (source : signal.From as) :
    signal.From bs := by
  cases signal with
  | value _ => trivial
  | giveBack _ span => exact more span source

theorem Builtin.apply_confined {b : Builtin} {span : Span} (site : N (.builtin b span)) {vs : List Value}
    (arguments : ∀ v ∈ vs, v.Sited N s) : (b.apply vs span).Confined N (EvalError.At N) s (Value.Sited N) := by
  unfold Builtin.apply
  cases answered : b.answer vs with
  | ok v =>
    have value : v.Sited N s := Builtin.answer_only arguments answered
    cases b.line? vs with
    | some line => exact (Confined.write line).bind fun _ _ grows _ => .pure fun _ more => (value.mono grows).mono more
    | none => exact .pure fun _ more => value.mono more
  | error r =>
    have explained : EvalError.At N ⟨.builtin b r, span⟩ := ⟨_, site, .builtin ⟨vs, answered⟩⟩
    cases b.line? vs with
    | some line => exact (Confined.write line).bind fun _ _ _ _ => .fail explained
    | none => exact .fail explained

/-- Calls of functions fail only at the sites of functions. -/
def CallsConfined (N : Site → Prop) (call : Closure → List Value → Eval Value) : Prop :=
  ∀ s c vs, c.Sited N s → (∀ v ∈ vs, v.Sited N s) → (call c vs).Confined N (EvalError.At N) s (Value.Sited N)

section
variable {call : Closure → List Value → Eval Value}

mutual
theorem Expr.eval_confined (calls : CallsConfined N call) :
    ∀ {s : Store} {f : FrameId} {known : List String} (e : Expr), s.Offers f known →
    (∀ x ∈ e.sites known, N x) → (Expr.eval call f e).Confined N (EvalError.At N) s fun t v =>
      v.Sited N t ∧ t.Offers f (e.binds known)
  | _, _, known, .identifier i, offers, within => by
    rw [Expr.eval]
    have site : N (.name known i) := within _ (by simp [Expr.sites])
    exact (Confined.lookup offers site).offered offers
  | _, _, _, .number x _, offers, _ => by
    rw [Expr.eval]
    exact .pure fun _ more => ⟨.number x, offers.mono more⟩
  | _, _, _, .boolean b _, offers, _ => by
    rw [Expr.eval]
    exact .pure fun _ more => ⟨.boolean b, offers.mono more⟩
  | _, _, _, .string w _, offers, _ => by
    rw [Expr.eval]
    exact .pure fun _ more => ⟨.string w, offers.mono more⟩
  | _, _, _, .prefixed op e _, offers, within => by
    rw [Expr.sites, List.forall_mem_append] at within
    rw [Expr.eval]
    refine (Expr.eval_confined calls e offers within.1).bind fun t v _ ⟨_, offers⟩ => ?_
    cases computed : op.compute? v with
    | some w => exact .pure fun _ more => ⟨PrefixOperator.compute?_only computed, offers.mono more⟩
    | none => exact .fail ⟨_, within.2 _ (List.mem_singleton_self _), .operand e _ _⟩
  | _, _, _, .binary op l r _, offers, within => by
    rw [Expr.sites, List.forall_mem_append, List.forall_mem_append] at within
    obtain ⟨left, right, own⟩ := within
    rw [Expr.eval]
    refine (Expr.eval_confined calls l offers left).bind fun t v _ ⟨_, offers⟩ => ?_
    refine (Expr.eval_confined calls r offers right).bind fun t w _ ⟨_, offers⟩ => ?_
    cases applied : op.apply v w with
    | ok u => exact .pure fun _ more => ⟨InfixOperator.apply_only applied, offers.mono more⟩
    | error m =>
      refine .fail ?_
      cases m.side with
      | left => exact ⟨_, own _ (by simp), .operand l _ _⟩
      | right => exact ⟨_, own _ (by simp), .operand r _ _⟩
  | _, _, _, .function is b _, offers, within => by
    rw [Expr.sites] at within
    rw [Expr.eval]
    exact (Confined.close offers within).offered offers
  | _, _, known, .call e es span, offers, within => by
    rw [Expr.sites] at within
    rw [Expr.eval, Expr.binds]
    cases named : e.builtin? with
    | some b =>
      simp only [named, List.forall_mem_append] at within
      rw [Expr.binds_of_builtin named]
      refine (Expr.evalAll_confined calls es offers within.1).bind fun t vs _ ⟨values, offers⟩ => ?_
      exact (Builtin.apply_confined (within.2 _ (List.mem_singleton_self _)) values).offered offers
    | none =>
      simp only [named, List.forall_mem_append] at within
      obtain ⟨callee, arguments, own⟩ := within
      refine (Expr.eval_confined calls e offers callee).bind fun t v _ ⟨value, offers⟩ => ?_
      refine (Expr.evalAll_confined calls es offers arguments).bind fun u vs more ⟨values, offers⟩ => ?_
      -- The function was found before the arguments were evaluated, and has its sites still.
      have value := value.mono more
      cases v with
      | function c => exact (calls u c vs (Value.only_function_iff.mp value) values).offered offers
      | number _ | string _ | boolean _ | empty | list _ | table _ =>
        exact .fail ⟨_, own _ (List.mem_singleton_self _), .callee e _⟩
  | _, _, _, .assignment i e _, offers, within => by
    rw [Expr.sites] at within
    rw [Expr.eval, Expr.binds]
    refine (Expr.eval_confined calls e offers within).bind fun t v _ ⟨value, offers⟩ => ?_
    refine (Confined.assign offers i.name value).bind fun u _ more offers => ?_
    exact .pure fun _ most => ⟨(value.mono more).mono most, offers.mono most⟩
  | _, _, _, .list es _, offers, within => by
    rw [Expr.sites] at within
    rw [Expr.eval, Expr.binds]
    refine (Expr.evalAll_confined calls es offers within).bind fun t vs _ ⟨values, offers⟩ => ?_
    exact .pure fun _ more => ⟨.list fun v member => (values v member).mono more, offers.mono more⟩
  | s, _, _, .table es _, offers, within => by
    rw [Expr.sites] at within
    rw [Expr.eval, Expr.binds]
    have none : Value.Sited N s (.table []) := by simp [Value.Only, Value.closures, Value.closuresEntries]
    refine (Expr.evalEntries_confined calls es offers within none).bind fun t entries _ ⟨sited, offers⟩ => ?_
    exact .pure fun _ more => ⟨sited.mono more, offers.mono more⟩
theorem Expr.evalAll_confined (calls : CallsConfined N call) :
    ∀ {s : Store} {f : FrameId} {known : List String} (es : List Expr), s.Offers f known →
    (∀ x ∈ Expr.sitesAll known es, N x) → (Expr.evalAll call f es).Confined N (EvalError.At N) s fun t vs =>
      (∀ v ∈ vs, v.Sited N t) ∧ t.Offers f (Expr.bindsAll known es)
  | _, _, _, [], offers, _ => by
    rw [Expr.evalAll]
    exact .pure fun _ more => ⟨List.forall_mem_nil _, offers.mono more⟩
  | _, _, _, e :: es, offers, within => by
    rw [Expr.sitesAll, List.forall_mem_append] at within
    rw [Expr.evalAll, Expr.bindsAll]
    refine (Expr.eval_confined calls e offers within.1).bind fun t v _ ⟨value, offers⟩ => ?_
    refine (Expr.evalAll_confined calls es offers within.2).bind fun u vs more ⟨values, offers⟩ => ?_
    refine .pure fun _ most => ⟨List.forall_mem_cons.mpr ⟨(value.mono more).mono most, fun w member => ?_⟩, offers.mono most⟩
    exact (values w member).mono most
theorem Expr.evalEntries_confined (calls : CallsConfined N call) :
    ∀ {s : Store} {f : FrameId} {known : List String} {table : Table} (es : List (Expr × Expr)), s.Offers f known →
    (∀ x ∈ Expr.sitesEntries known es, N x) → (Value.table table).Sited N s →
      (Expr.evalEntries call f table es).Confined N (EvalError.At N) s fun t entries =>
        (Value.table entries).Sited N t ∧ t.Offers f (Expr.bindsEntries known es)
  | _, _, _, _, [], offers, _, sited => by
    rw [Expr.evalEntries]
    exact .pure fun _ more => ⟨sited.mono more, offers.mono more⟩
  | _, _, _, _, (k, e) :: es, offers, within, sited => by
    rw [Expr.sitesEntries, List.forall_mem_append, List.forall_mem_cons, List.forall_mem_append] at within
    obtain ⟨key, own, value, rest⟩ := within
    rw [Expr.evalEntries, Expr.bindsEntries]
    refine (Expr.eval_confined calls k offers key).bind fun t key more ⟨keySited, offers⟩ => ?_
    split
    · next hashable =>
      refine (Expr.eval_confined calls e offers value).bind fun u v most ⟨value, offers⟩ => ?_
      exact Expr.evalEntries_confined calls es offers rest
        (((sited.mono more).mono most).insert (keySited.mono most) value hashable)
    · exact .fail ⟨_, own, .key k _⟩
theorem Statement.eval_confined (calls : CallsConfined N call) :
    ∀ {s : Store} {f : FrameId} {known : List String} (a : Statement), s.Offers f known →
    (∀ x ∈ a.sites known, N x) → (Statement.eval call f a).Confined N (EvalError.At N) s fun t signal =>
      (signal.result.Sited N t ∧ signal.From a.returns) ∧ t.Offers f (a.binds known)
  | _, _, _, .branch e b none _, offers, within => by
    rw [Statement.sites, List.forall_mem_append, List.forall_mem_cons] at within
    obtain ⟨predicate, own, consequence⟩ := within
    rw [Statement.eval, Statement.binds, Statement.returns]
    refine (Expr.eval_confined calls e offers predicate).bind fun t v _ ⟨_, offers⟩ => ?_
    split
    · exact (Block.eval_confined calls b offers consequence).offered offers
    · rw [Block.evalOption]
      exact .pure fun _ more => ⟨⟨.empty, trivial⟩, offers.mono more⟩
    · exact .fail ⟨_, own, .predicate e _⟩
  | _, _, _, .branch e b (some c) _, offers, within => by
    rw [Statement.sites, List.forall_mem_append, List.forall_mem_cons, List.forall_mem_append] at within
    obtain ⟨predicate, own, consequence, alternative⟩ := within
    rw [Statement.eval, Statement.binds, Statement.returns]
    refine (Expr.eval_confined calls e offers predicate).bind fun t v _ ⟨_, offers⟩ => ?_
    split
    · refine (Block.eval_confined calls b offers consequence).imp (fun _ => id) fun u _ more ⟨value, source⟩ => ?_
      exact ⟨⟨value, source.mono fun _ => List.mem_append_left _⟩, offers.mono more⟩
    · rw [Block.evalOption]
      refine (Block.eval_confined calls c offers alternative).imp (fun _ => id) fun u _ more ⟨value, source⟩ => ?_
      exact ⟨⟨value, source.mono fun _ => List.mem_append_right _⟩, offers.mono more⟩
    · exact .fail ⟨_, own, .predicate e _⟩
  | _, _, _, .giveBack e span, offers, within => by
    rw [Statement.sites] at within
    rw [Statement.eval, Statement.binds, Statement.returns]
    refine (Expr.eval_confined calls e offers within).bind fun t v _ ⟨value, offers⟩ => ?_
    exact .pure fun _ more => ⟨⟨value.mono more, List.mem_singleton_self span⟩, offers.mono more⟩
  | _, _, _, .expression e, offers, within => by
    rw [Statement.sites] at within
    rw [Statement.eval, Statement.binds]
    refine (Expr.eval_confined calls e offers within).bind fun t v _ ⟨value, offers⟩ => ?_
    exact .pure fun _ more => ⟨⟨value.mono more, trivial⟩, offers.mono more⟩
theorem Statement.evalAll_confined (calls : CallsConfined N call) :
    ∀ {s : Store} {f : FrameId} {known : List String} {last : Value}
    (as : List Statement), s.Offers f known → (∀ x ∈ Statement.sitesAll known as, N x) → last.Sited N s →
      (Statement.evalAll call f last as).Confined N (EvalError.At N) s fun t signal =>
        signal.result.Sited N t ∧ signal.From (Statement.returnsAll as)
  | _, _, _, _, [], _, _, sited => by
    rw [Statement.evalAll]
    exact .pure fun _ more => ⟨sited.mono more, trivial⟩
  | _, _, _, _, a :: as, offers, within, _ => by
    rw [Statement.sitesAll, List.forall_mem_append] at within
    rw [Statement.evalAll, Statement.returnsAll]
    refine (Statement.eval_confined calls a offers within.1).bind fun t signal _ ⟨⟨value, source⟩, offers⟩ => ?_
    cases signal with
    | value v =>
      have behind := Statement.evalAll_confined calls as offers within.2 value
      refine behind.imp (fun _ => id) fun _ _ _ ⟨value, source⟩ => ?_
      exact ⟨value, source.mono fun _ => List.mem_append_right _⟩
    | giveBack v span => exact .pure fun _ more => ⟨value.mono more, List.mem_append_left _ source⟩
theorem Block.eval_confined (calls : CallsConfined N call) :
    ∀ {s : Store} {f : FrameId} {known : List String} (b : Block), s.Offers f known →
    (∀ x ∈ b.sites known, N x) → (Block.eval call f b).Confined N (EvalError.At N) s fun t signal =>
      signal.result.Sited N t ∧ signal.From b.returns
  | _, _, _, ⟨as, _⟩, offers, within => by
    rw [Block.sites] at within
    rw [Block.eval, Block.returns]
    refine (Confined.enter offers (List.forall_mem_nil _) (List.forall_mem_nil _)).bind fun t g _ offers => ?_
    exact Statement.evalAll_confined calls as offers within .empty
end

end

/-- Applying a function fails only at the sites of functions. -/
theorem Closure.apply_confined (depth : Nat) : CallsConfined N (Closure.apply depth) := by
  induction depth with
  | zero => exact fun _ _ _ _ _ _ _ _ => .tooDeep
  | succ depth ih =>
    rintro s c vs ⟨known, offers, within⟩ arguments
    rw [Block.sites_eq] at within
    rw [Closure.apply]
    have values := bindParameters_all (P := Value.Sited N s) .empty c.parameters arguments (List.forall_mem_nil _)
    have bound : ∀ name ∈ c.parameters.map Identifier.name,
        (Entries.get? name (bindParameters c.parameters vs [])).isSome :=
      fun name parameter => isSome_bindParameters c.parameters vs [] (.inl parameter)
    refine (Confined.enter offers values bound).bind fun t f _ offers => ?_
    refine (Statement.evalAll_confined ih c.body.statements offers within .empty).bind fun u signal _ ends => ?_
    exact .pure fun _ more => ends.1.mono more

/-- Errors of a program: such as arise at the sites, and returns that no call encloses. -/
def Program.Faults (N : Site → Prop) (p : Program) (e : EvalError) : Prop :=
  e.At N ∨ ∃ v : Value, e.cause = .topLevelReturn v.render ∧ e.span ∈ Statement.returnsAll p.statements

/-- Evaluating a program fails only at its sites and those of functions, or at a return of its own. -/
theorem Program.eval_confined (depth : Nat) {f : FrameId} {known : List String} (p : Program) (offers : s.Offers f known)
    (within : ∀ x ∈ Statement.sitesAll known p.statements, N x) :
    (p.eval depth f).Confined N (p.Faults N) s (Value.Sited N) := by
  rw [Program.eval]
  have statements := Statement.evalAll_confined (Closure.apply_confined depth) p.statements offers within .empty
  refine (statements.imp (fun _ => .inl) fun _ _ _ => id).bind fun t signal _ ends => ?_
  obtain ⟨value, source⟩ := ends
  cases signal with
  | value v => exact .pure fun _ more => value.mono more
  | giveBack v span => exact .fail (.inr ⟨v, rfl, source⟩)

namespace Session

/-- The store of a session that has run a program has the sites of the program and of its functions,
    its value has, and its error is a fault of the program. -/
theorem observe_confined {s : Session} (sited : s.store.Sited N) (present : globals < s.store.frames.size) {p : Program}
    (within : ∀ x ∈ p.sites, N x) {depth : Nat} {x : Execution} (observed : s.observe (p.eval depth globals) = some x) :
    x.session.store.Sited N ∧ s.store.Grows x.session.store ∧ (∀ v, x.result = .ok v → v.Sited N x.session.store) ∧
      ∀ e, x.result = .error (.eval e) → p.Faults N e := by
  have offers : s.store.Offers globals [] := ⟨present, List.forall_mem_nil _⟩
  have silenced : s.store.Grows s.store.silence := .of_frames rfl
  have ends := Program.eval_confined depth p offers within s.store.silence silenced (sited.of_frames rfl)
  revert ends observed
  rw [observe]
  cases p.eval depth globals s.store.silence <;>
    rintro observed (⟨more, sited, value⟩ | ⟨more, sited, fault⟩ | _) <;> cases observed
  · refine ⟨sited, silenced.trans more, ?_, by simp⟩
    rintro v ⟨⟩
    exact value
  · refine ⟨sited, silenced.trans more, by simp, ?_⟩
    rintro e ⟨⟩
    exact fault

end Session
end KoreanScript
