import KoreanScript.Proofs.Absence
import KoreanScript.Proofs.Joining

/-!
Naming the parts of an expression. A call or an infix operation evaluates its parts from
left to right and then makes something of their values. So it does no harm to bind the
values to names first, one after the other, and to make the same of the names, as long as
these stand neither in the parts nor in any function that these can come to.
-/
namespace KoreanScript

/-- `Naming ns es as`: each of the statements `as` binds one of the names to one of the expressions,
    in their order. -/
inductive Statement.Naming : List String → List Expr → List Statement → Prop
  | nil : Naming [] [] []
  | cons (i : Identifier) (e : Expr) (span : Span) {ns : List String} {es : List Expr} {as : List Statement} :
    Naming ns es as → Naming (i.name :: ns) (e :: es) (.expression (.assignment i e span) :: as)

/-- `e.ByName es is d`: the expression `e` has the parts `es`, and `d` is `e` with names in their place.
    The builtin that a call names is no part of it. -/
inductive Expr.ByName : Expr → List Expr → List Identifier → Expr → Prop
  | call {c : Expr} {es : List Expr} {i : Identifier} {is : List Identifier} {span span' : Span} :
    c.builtin? = none → Builtin.ofName? i.name = none →
      ByName (.call c es span) (c :: es) (i :: is) (.call (.identifier i) (is.map .identifier) span')
  | builtin {b : Builtin} {i j : Identifier} {es : List Expr} {is : List Identifier} {span span' : Span} :
    Builtin.ofName? i.name = some b → j.name = i.name →
      ByName (.call (.identifier i) es span) es is (.call (.identifier j) (is.map .identifier) span')
  | binary (op : InfixOperator) {l r : Expr} {i j : Identifier} {span span' : Span} :
    ByName (.binary op l r span) [l, r] [i, j] (.binary op (.identifier i) (.identifier j) span')

/-- Evaluations that end in one value, or for one cause, with stores that are the same but for what
    frame `f` binds the names `ns` to. -/
inductive Outcome.SameBut (f : FrameId) (ns : List String) : Outcome Value → Outcome Value → Prop
  | done (v : Value) {s t : Store} : s.SameBut f ns t → SameBut f ns (.done v s) (.done v t)
  | failed (cause : EvalError.Cause) {i j : Span} {s t : Store} :
    s.SameBut f ns t → SameBut f ns (.failed ⟨cause, i⟩ s) (.failed ⟨cause, j⟩ t)
  | tooDeep : SameBut f ns .tooDeep .tooDeep

section
variable {start : Store} {f : FrameId} {ns : List String} {depth : Nat}

/-! ### Binding the parts -/

/-- How the evaluation of parts ends beside that of statements which bind `ms` to them: with the names
    bound to the values, or with one error. Other names keep what they are bound to. -/
inductive NamedEnd (start : Store) (f : FrameId) (ns : List String) (bound : String → Option Value) (ms : List String) :
    Outcome (List Value) → Outcome Signal → Prop
  | done {bound' : String → Option Value} {vs : List Value} {last : Value} {s t : Store} :
    start.Beside f f ns bound' s t → List.Forall₂ (start.SameFree f ns) vs vs →
      List.Forall₂ (fun m v => bound' m = some v) ms vs → (∀ m, m ∉ ms → bound' m = bound m) →
      NamedEnd start f ns bound ms (.done vs s) (.done (.value last) t)
  | failed {bound' : String → Option Value} (e : EvalError) {s t : Store} :
    start.Beside f f ns bound' s t → NamedEnd start f ns bound ms (.failed e s) (.failed e t)
  | tooDeep : NamedEnd start f ns bound ms .tooDeep .tooDeep

/-- Binding an expression and going on is evaluating it, binding its value and going on. -/
theorem Statement.evalAll_assignment (call : Closure → List Value → Eval Value) (i : Identifier) (e : Expr) (span : Span)
    (as : List Statement) (last : Value) : evalAll call f last (.expression (.assignment i e span) :: as) = (do
      let v ← e.eval call f
      Eval.assign f i.name v
      evalAll call f v as) := by
  simp only [evalAll, Statement.eval, Expr.eval, bind_assoc, pure_bind]

/-- Statements that bind names to parts end as the evaluation of the parts does. None of the parts sees
    the names, so what those before it were bound to makes no difference to it. -/
theorem Statement.Naming.ends (present : f < start.frames.size) {ms : List String} {es : List Expr} {as : List Statement}
    (naming : Naming ms es as) (among : ∀ m ∈ ms, m ∈ ns) (distinct : ms.Nodup) (absent : (Expr.namesAll es).Disjoint ns)
    {bound : String → Option Value} {s t : Store} (beside : start.Beside f f ns bound s t) (last : Value) :
    NamedEnd start f ns bound ms (Expr.evalAll (Closure.apply depth) f es s)
      (Statement.evalAll (Closure.apply depth) f last as t) := by
  induction naming generalizing bound s t last with
  | nil => exact .done beside .nil .nil fun _ _ => rfl
  | @cons i e span ms es as naming ih =>
    obtain ⟨new, distinct⟩ := List.nodup_cons.mp distinct
    obtain ⟨target, among⟩ := List.forall_mem_cons.mp among
    rw [Expr.namesAll, List.disjoint_append_left] at absent
    rw [Expr.evalAll, Statement.evalAll_assignment, Eval.bind_apply, Eval.bind_apply]
    have first := Simulation.Expr.evals (S := start.apart f f ns bound present) (Simulation.apply_evals depth) rfl
      (f := f) ⟨rfl, .inl .here⟩ (Expr.alike_lacking e absent.1) s t beside
    revert first
    cases Expr.eval (Closure.apply depth) f e s <;> cases Expr.eval (Closure.apply depth) f e t <;>
      rintro (⟨values, beside⟩ | ⟨cause, ⟨_, rfl, same⟩, beside⟩ | _)
    · next v s _ t =>
      obtain ⟨rfl, _⟩ := values.same
      have rest := ih among distinct absent.2 (beside.bind_right present target v fun _ _ => rfl) v
      change NamedEnd start f ns bound (i.name :: ms) ((Expr.evalAll (Closure.apply depth) f es >>= fun vs => pure (v :: vs)) s)
        (Statement.evalAll (Closure.apply depth) f v as (t.bind f i.name v))
      rw [Eval.bind_apply]
      revert rest
      cases Expr.evalAll (Closure.apply depth) f es s <;>
        cases Statement.evalAll (Closure.apply depth) f v as (t.bind f i.name v) <;>
        rintro (⟨beside, free, named, others⟩ | ⟨e, beside⟩ | _)
      · refine .done beside (.cons values free) (.cons ?_ named) fun m other => ?_
        · rw [others i.name new, if_pos rfl]
        · obtain ⟨another, other⟩ := not_or.mp (mt List.mem_cons.mpr other)
          rw [others m other, if_neg another]
      · exact .failed _ beside
      · exact .tooDeep
    · cases same
      exact .failed _ beside
    · exact .tooDeep

/-! ### Putting the values together -/

/-- Names mean what the frame binds them to. -/
theorem Expr.evalAll_identifiers (call : Closure → List Value → Eval Value) {t : Store} {is : List Identifier}
    {vs : List Value} (named : List.Forall₂ (fun m v => t.own? f m = some v) (is.map Identifier.name) vs) :
    Expr.evalAll call f (is.map .identifier) t = .done vs t := by
  induction is generalizing vs with
  | nil =>
    cases named
    rfl
  | cons i is ih =>
    cases named with
    | cons own named =>
      rw [List.map_cons, Expr.evalAll, Eval.bind_apply, Expr.eval, Eval.lookup, Store.lookup_of_own? own]
      simp only
      rw [Eval.bind_apply, ih named]
      rfl

/-- A builtin does the same in stores that are the same but for some bindings. -/
theorem Builtin.apply_sameBut (b : Builtin) (vs : List Value) (span span' : Span) {s t : Store} (same : s.SameBut f ns t) :
    (b.apply vs span s).SameBut f ns (b.apply vs span' t) := by
  rw [Builtin.apply, Builtin.apply]
  cases b.line? vs with
  | none =>
    cases b.answer vs with
    | ok v => exact .done v same
    | error r => exact .failed _ same
  | some line =>
    cases b.answer vs with
    | ok v => exact .done v (same.write line)
    | error r => exact .failed _ (same.write line)

/-- Ends of evaluations with other bindings of the names are the same but for these. -/
theorem Simulation.Ends.sameBut {bound : String → Option Value} {present : f < start.frames.size} {x y : Outcome Value}
    (ends : Simulation.Ends (start.apart f f ns bound present) (start.SameFree f ns) x y) : x.SameBut f ns y := by
  cases ends with
  | done values beside =>
    obtain ⟨rfl, _⟩ := values.same
    exact .done _ beside.same
  | failed cause spans beside => exact .failed cause beside.same
  | tooDeep => exact .tooDeep

/-- What a call makes of the value of its target and those of its arguments. The target is said to stand
    at `place`. -/
def Closure.applyAll (depth : Nat) (place : Span) : List Value → Eval Value
  | [] => pure .empty
  | .function c :: vs => Closure.apply depth c vs
  | v :: _ => Eval.fail (.callTarget v.kind) place
/-- What an operator makes of the values of its operands. -/
def InfixOperator.applyAll (op : InfixOperator) (left right : Span) : List Value → Eval Value
  | [v, w] =>
    match op.apply v w with
    | .ok u => pure u
    | .error m => Eval.fail (.operand m.found m.accepted) (match m.side with | .left => left | .right => right)
  | _ => pure .empty

theorem Expr.eval_call {c : Expr} (target : c.builtin? = none) (es : List Expr) (span : Span) :
    (Expr.call c es span).eval (Closure.apply depth) f =
      Expr.evalAll (Closure.apply depth) f (c :: es) >>= Closure.applyAll depth c.span := by
  simp only [Expr.eval, target, Expr.evalAll, bind_assoc, pure_bind]
  congr
  funext v
  congr
  funext vs
  cases v <;> rfl
theorem Expr.eval_callBuiltin {b : Builtin} {i : Identifier} (named : Builtin.ofName? i.name = some b) (es : List Expr)
    (span : Span) : (Expr.call (.identifier i) es span).eval (Closure.apply depth) f =
      Expr.evalAll (Closure.apply depth) f es >>= fun vs => b.apply vs span := by
  rw [Expr.eval, Expr.builtin?, named]
theorem Expr.eval_binary (op : InfixOperator) (l r : Expr) (span : Span) :
    (Expr.binary op l r span).eval (Closure.apply depth) f =
      Expr.evalAll (Closure.apply depth) f [l, r] >>= op.applyAll l.span r.span := by
  simp only [Expr.eval, Expr.evalAll, bind_assoc, pure_bind]
  rfl

/-- A call of values does the same in stores beside each other, wherever its target stands. -/
theorem Closure.applyAll_sameBut (present : f < start.frames.size) (place place' : Span) {bound : String → Option Value}
    {s t : Store} (beside : start.Beside f f ns bound s t) {vs : List Value}
    (free : List.Forall₂ (start.SameFree f ns) vs vs) :
    (applyAll depth place vs s).SameBut f ns (applyAll depth place' vs t) := by
  cases free with
  | nil => exact .done .empty beside.same
  | @cons v _ vs _ value free =>
    cases v with
    | function c =>
      cases value with
      | function related =>
        have calls := Simulation.apply_evals (S := start.apart f f ns bound present) depth
        exact (calls c c vs vs related free s t beside).sameBut
    | number _ | string _ | boolean _ | empty | list _ | table _ => exact .failed _ beside.same
theorem InfixOperator.applyAll_sameBut (op : InfixOperator) (vs : List Value) (left left' right right' : Span) {s t : Store}
    (same : s.SameBut f ns t) : (op.applyAll left right vs s).SameBut f ns (op.applyAll left' right' vs t) := by
  match vs with
  | [v, w] =>
    rw [applyAll, applyAll]
    cases op.apply v w with
    | ok u => exact .done u same
    | error m => exact .failed _ same
  | [] | [_] | _ :: _ :: _ :: _ => exact .done .empty same

end

/-- A program of one expression gives the value of the expression. -/
theorem Program.eval_expression (depth : Nat) (f : FrameId) (e : Expr) (span : Span) :
    Program.eval depth f ⟨[.expression e], span⟩ = e.eval (Closure.apply depth) f := by
  rw [Program.eval, Statement.evalAll_singleton, Statement.eval, bind_assoc]
  simp only [pure_bind]
  exact bind_pure _

/-! ### Both together -/

section
variable {f : FrameId} {depth : Nat} {s : Store} {is : List Identifier} {es : List Expr} {as : List Statement}
  (naming : Statement.Naming (is.map Identifier.name) es as) (distinct : (is.map Identifier.name).Nodup)
  (absent : ∀ n ∈ is.map Identifier.name, n ∉ Expr.namesAll es) (present : f < s.frames.size)
  (unread : ∀ n ∈ is.map Identifier.name, s.Unread f n)
include naming distinct absent present unread

/-- An expression does what another one does behind statements that bind its parts to names, if the
    other makes of what the names mean what it makes of the values of its parts. -/
theorem Statement.Naming.sameBut {e d : Expr} {make make' : List Value → Eval Value}
    (left : e.eval (Closure.apply depth) f = Expr.evalAll (Closure.apply depth) f es >>= make)
    (right : d.eval (Closure.apply depth) f = Expr.evalAll (Closure.apply depth) f (is.map .identifier) >>= make')
    (same : ∀ {bound t u vs}, s.Beside f f (is.map Identifier.name) bound t u →
      List.Forall₂ (s.SameFree f (is.map Identifier.name)) vs vs →
        (make vs t).SameBut f (is.map Identifier.name) (make' vs u)) (span : Span) :
    (e.eval (Closure.apply depth) f s).SameBut f (is.map Identifier.name)
      (Program.eval depth f ⟨as ++ [.expression d], span⟩ s) := by
  have named : NamedEnd s f (is.map Identifier.name) (s.own? f) (is.map Identifier.name)
      (Expr.evalAll (Closure.apply depth) f es s) (Statement.evalAll (Closure.apply depth) f .empty as s) :=
    naming.ends present (fun _ => id) distinct (fun n inside among => absent n among inside)
      (Store.Unread.beside unread f) .empty
  have whole := Program.eval_append (p := ⟨as, span⟩) (q := ⟨[.expression d], span⟩) (r := ⟨as ++ [.expression d], span⟩)
    rfl (List.cons_ne_nil _ _) depth f
  rw [left, whole, Program.eval_expression, Program.eval, bind_assoc, Eval.bind_apply, Eval.bind_apply]
  revert named
  cases Expr.evalAll (Closure.apply depth) f es s <;> cases Statement.evalAll (Closure.apply depth) f .empty as s <;>
    rintro (⟨beside, free, named, others⟩ | ⟨e, beside⟩ | _)
  · next vs t u bound last =>
    have own : List.Forall₂ (fun m v => u.own? f m = some v) (is.map Identifier.name) vs :=
      ((List.forall₂_and_left ..).mpr ⟨fun _ => id, named⟩).imp fun m v both => (beside.own both.1).trans both.2
    change (make vs t).SameBut f _ (d.eval (Closure.apply depth) f u)
    rw [right, Eval.bind_apply, Expr.evalAll_identifiers _ own]
    exact same beside free
  · exact .failed _ beside.same
  · exact .tooDeep

/-- A call or an infix operation may be evaluated by binding the values of its parts to names first, from
    left to right, and then making the same of the names; the names stand neither in the parts nor in a
    function that evaluation in the frame can come to. That gives the same value or fails for the same
    cause, writes the same and leaves the same bindings but for the names. -/
theorem Expr.eval_byName {e d : Expr} (byName : e.ByName es is d) (depth : Nat) (span : Span) :
    (e.eval (Closure.apply depth) f s).SameBut f (is.map Identifier.name)
      (Program.eval depth f ⟨as ++ [.expression d], span⟩ s) := by
  cases byName with
  | @call c es i is span' span'' target other =>
    refine naming.sameBut distinct absent present unread (Expr.eval_call target es span')
      (Expr.eval_call (c := .identifier i) other _ span'') ?_ span
    exact fun beside free => Closure.applyAll_sameBut present c.span i.span beside free
  | @builtin b i j es is span' span'' found name =>
    refine naming.sameBut distinct absent present unread (Expr.eval_callBuiltin found es span')
      (Expr.eval_callBuiltin (name ▸ found) _ span'') ?_ span
    exact fun beside _ => b.apply_sameBut _ span' span'' beside.same
  | @binary op l r i j span' span'' =>
    refine naming.sameBut distinct absent present unread (Expr.eval_binary op l r span')
      (Expr.eval_binary op (.identifier i) (.identifier j) span'') ?_ span
    exact fun beside _ => op.applyAll_sameBut _ l.span i.span r.span j.span beside.same

end

/-- The left operand is read before the right one binds its name anew, with names for the two as well. -/
theorem Expr.eval_byName_binary :
    let here : Span := ⟨⟨0, 0⟩, ⟨0, 0⟩⟩
    let l : Expr := .identifier ⟨"a", here⟩
    let r : Expr := .assignment ⟨"a", here⟩ (.string "y" here) here
    let s : Store := ⟨#[⟨[("a", .string "x")], none⟩], 0, #[]⟩
    let t : Store := ⟨#[⟨[("a", .string "y")], none⟩], 0, #[]⟩
    (Expr.binary .equal l r here).eval (Closure.apply 1) 0 s = .done (.boolean false) t ∧
      (Outcome.done (.boolean false) t).SameBut 0 ["t", "u"] (Program.eval 1 0
        ⟨[.expression (.assignment ⟨"t", here⟩ l here), .expression (.assignment ⟨"u", here⟩ r here),
          .expression (.binary .equal (.identifier ⟨"t", here⟩) (.identifier ⟨"u", here⟩) here)], here⟩ s) := by
  intro here l r s t
  have runs : (Expr.binary .equal l r here).eval (Closure.apply 1) 0 s = .done (.boolean false) t := by cbv
  refine ⟨runs, ?_⟩
  let is : List Identifier := [⟨"t", here⟩, ⟨"u", here⟩]
  have naming : Statement.Naming (is.map Identifier.name) [l, r] [.expression (.assignment ⟨"t", here⟩ l here),
      .expression (.assignment ⟨"u", here⟩ r here)] := .cons ⟨"t", here⟩ l here (.cons ⟨"u", here⟩ r here .nil)
  -- The only frame binds a text, so that evaluation comes to no function.
  have unread (n : String) : s.Unread 0 n := by
    intro g frame name v c _ at_g found inside
    have among := Array.mem_of_getElem? at_g
    cases Array.mem_singleton.mp among
    obtain ⟨_, member⟩ := Entries.mem_of_get? found
    cases List.mem_singleton.mp member
    cases inside
  have byName : (Expr.binary .equal l r here).ByName [l, r] is
      (.binary .equal (.identifier ⟨"t", here⟩) (.identifier ⟨"u", here⟩) here) := .binary .equal
  have same := Expr.eval_byName naming (by decide) (by decide) (s := s) (f := 0) (by decide) (fun n _ => unread n) byName 1 here
  rwa [runs] at same

end KoreanScript
