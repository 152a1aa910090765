import KoreanScript.Proofs.Equality
import KoreanScript.Proofs.Reach

/-!
What equality of values looks at. It compares lists and tables place by place and functions
by their marks, which are their identity: no two evaluations of function literals give one
mark to what they make. So it is an equivalence of all values but those in which the
undefined number stands, and these are not equal to themselves.
-/
namespace KoreanScript

namespace Value

/-! ### Equality by parts -/

theorem kind_eq_of_beq {v w : Value} (equal : v == w) : v.kind = w.kind := by
  change same v w at equal
  unfold same at equal
  split at equal
  case h_8 => cases equal
  all_goals rfl
/-- Functions are equal by their marks, whatever is bound in the frames that they were made in. -/
theorem function_beq_iff {f g : Closure} : (Value.function f == .function g) ↔ f.mark = g.mark := by
  show (f.mark == g.mark) = true ↔ _
  rw [beq_iff_eq]
theorem sameAll_iff {vs ws : List Value} : sameAll vs ws ↔ List.Forall₂ (fun v w => v == w) vs ws := by
  induction vs generalizing ws with
  | nil => cases ws <;> simp [sameAll]
  | cons v vs ih =>
    cases ws with
    | nil => simp [sameAll]
    | cons w ws =>
      rw [sameAll, Bool.and_eq_true, List.forall₂_cons, ih]
      rfl
theorem sameEntries_iff {es fs : List (Value × Value)} :
    sameEntries es fs ↔ List.Forall₂ (fun d e => d.1 == e.1 ∧ d.2 == e.2) es fs := by
  induction es generalizing fs with
  | nil => cases fs <;> simp [sameEntries]
  | cons d es ih =>
    cases fs with
    | nil => simp [sameEntries]
    | cons e fs =>
      rw [sameEntries, Bool.and_eq_true, Bool.and_eq_true, List.forall₂_cons, ih]
      rfl
theorem list_beq_iff {vs ws : List Value} : (Value.list vs == .list ws) ↔ List.Forall₂ (fun v w => v == w) vs ws := by
  rw [← sameAll_iff]
  show same (.list vs) (.list ws) ↔ _
  rw [same]
theorem table_beq_iff {es fs : Table} :
    (Value.table es == .table fs) ↔ List.Forall₂ (fun d e => d.1 == e.1 ∧ d.2 == e.2) es fs := by
  rw [← sameEntries_iff]
  show same (.table es) (.table fs) ↔ _
  rw [same]

/-! ### Equality to itself -/

/-- `u.Within v`: the value `u` is `v`, or stands in it at any depth, as an element of a list or as
    a key or a value of a table. -/
inductive Within (u : Value) : Value → Prop
  | self : u.Within u
  | element {v : Value} {vs : List Value} : v ∈ vs → u.Within v → u.Within (.list vs)
  | key {e : Value × Value} {es : Table} : e ∈ es → u.Within e.1 → u.Within (.table es)
  | value {e : Value × Value} {es : Table} : e ∈ es → u.Within e.2 → u.Within (.table es)

/-- The undefined number neither is the value nor stands in it. -/
def Defined (v : Value) : Prop := ∀ x, (number x).Within v → x.isNaN = false

theorem defined_number {x : Float} : (number x).Defined ↔ x.isNaN = false := by
  constructor
  · intro defined
    exact defined x .self
  · intro defined y within
    cases within
    exact defined
theorem defined_list {vs : List Value} : (list vs).Defined ↔ ∀ v ∈ vs, v.Defined := by
  constructor
  · intro defined v member x within
    exact defined x (.element member within)
  · intro defined x within
    cases within with
    | element member within => exact defined _ member x within
theorem defined_table {es : Table} : (table es).Defined ↔ ∀ e ∈ es, e.1.Defined ∧ e.2.Defined := by
  constructor
  · intro defined e member
    exact ⟨fun x within => defined x (.key member within), fun x within => defined x (.value member within)⟩
  · intro defined x within
    cases within with
    | key member within => exact (defined _ member).1 x within
    | value member within => exact (defined _ member).2 x within

mutual
theorem same_self_iff : ∀ v : Value, same v v ↔ v.Defined
  | .number x => by
    rw [defined_number]
    exact ⟨Number.isNaN_of_beq, Number.beq_self⟩
  | .string s => iff_of_true (BEq.rfl (a := s)) nofun
  | .boolean b => iff_of_true (BEq.rfl (a := b)) nofun
  -- What a function captures is not within it.
  | .function f => iff_of_true (BEq.rfl (a := f.mark)) nofun
  | .empty => iff_of_true rfl nofun
  | .list vs => by rw [same, defined_list, sameAll_self_iff]
  | .table es => by rw [same, defined_table, sameEntries_self_iff]
theorem sameAll_self_iff : ∀ vs : List Value, sameAll vs vs ↔ ∀ v ∈ vs, v.Defined
  | [] => by simp [sameAll]
  | v :: vs => by rw [sameAll, Bool.and_eq_true, List.forall_mem_cons, same_self_iff, sameAll_self_iff]
theorem sameEntries_self_iff : ∀ es : List (Value × Value), sameEntries es es ↔ ∀ e ∈ es, e.1.Defined ∧ e.2.Defined
  | [] => by simp [sameEntries]
  | (k, v) :: es => by
    rw [sameEntries, Bool.and_eq_true, Bool.and_eq_true, List.forall_mem_cons, same_self_iff, same_self_iff,
      sameEntries_self_iff]
end

end Value

/-! ### The identity of functions -/

namespace Store

/-- Whether an evaluation of a function literal in the store `s` gives `v` and leaves `t`. -/
def Makes (s : Store) (v : Value) (t : Store) : Prop :=
  ∃ call f parameters body span, (Expr.function parameters body span).eval call f s = .done v t

variable {s t : Store}

theorem Makes.closure {v : Value} (made : s.Makes v t) :
    ∃ c, v = .function c ∧ c.mark = s.functions ∧ t.functions = s.functions + 1 := by
  obtain ⟨call, f, parameters, body, span, ends⟩ := made
  rw [Expr.eval] at ends
  cases ends
  exact ⟨_, rfl, rfl, rfl⟩
/-- Marks are never given out again. -/
theorem Later.functions_le (later : s.Later t) : s.functions ≤ t.functions := by
  induction later with
  | now => exact Nat.le_refl _
  | close _ ih => exact Nat.le_succ_of_le ih
  | bind _ _ _ _ ih | push _ _ ih | write _ _ ih | silence _ ih => exact ih
/-- What two evaluations of function literals make is not equal, whatever is evaluated between them. -/
theorem Makes.beq_eq_false {s' t' : Store} {v w : Value} (first : s.Makes v s') (later : s'.Later t)
    (second : t.Makes w t') : (v == w) = false := by
  obtain ⟨c, rfl, mark, next⟩ := first.closure
  obtain ⟨d, rfl, mark', _⟩ := second.closure
  have less := later.functions_le
  refine Bool.eq_false_iff.mpr fun equal => ?_
  have same := Value.function_beq_iff.mp equal
  omega

end Store

/-! ### The main result -/

/-- Equality of values is symmetric and transitive, and what is equal to itself is what no undefined
    number is or stands in. Functions are equal by their marks alone, and two evaluations of function
    literals never make equal ones; lists and tables are equal place by place, and values of
    different kinds never. -/
theorem Value.beq_partial_equivalence :
    (∀ v w : Value, v == w → w == v) ∧
    (∀ u v w : Value, u == v → v == w → u == w) ∧
    (∀ v : Value, v == v ↔ ∀ x, (number x).Within v → x.isNaN = false) ∧
    (∀ f g : Closure, (Value.function f == .function g) ↔ f.mark = g.mark) ∧
    (∀ (s s' t t' : Store) (v w : Value), s.Makes v s' → s'.Later t → t.Makes w t' → (v == w) = false) ∧
    (∀ vs ws : List Value, (Value.list vs == .list ws) ↔ vs.length = ws.length ∧
      ∀ (i : Nat) (h : i < vs.length) (k : i < ws.length), vs[i] == ws[i]) ∧
    (∀ es fs : Table, (Value.table es == .table fs) ↔ es.length = fs.length ∧
      ∀ (i : Nat) (h : i < es.length) (k : i < fs.length), es[i].1 == fs[i].1 ∧ es[i].2 == fs[i].2) ∧
    ∀ v w : Value, v.kind ≠ w.kind → (v == w) = false := by
  refine ⟨fun v w => BEq.symm, fun u v w => BEq.trans, same_self_iff, fun f g => function_beq_iff,
    fun s s' t t' v w => Store.Makes.beq_eq_false, ?_, ?_, ?_⟩
  · intro vs ws
    rw [list_beq_iff, List.forall₂_iff_get]
    rfl
  · intro es fs
    rw [table_beq_iff, List.forall₂_iff_get]
    rfl
  · intro v w other
    exact Bool.eq_false_iff.mpr fun equal => other (kind_eq_of_beq equal)

/-- Lists of one function, whatever was captured with it; what one literal gives at two times; a list and
    its text. -/
theorem Value.beq_partial_equivalence_functions :
    let f (mark : Nat) (scope : FrameId) : Value := .function ⟨mark, [], ⟨[], ⟨⟨0, 2⟩, ⟨0, 3⟩⟩⟩, scope⟩
    let made (n : Nat) : Store := ⟨#[], n, #[]⟩
    (Value.list [f 0 1, .empty] == .list [f 0 0, .empty]) ∧ (Value.list [f 0 0, .empty] == .list [f 0 2, .empty]) ∧
      ((made 0).Makes (f 0 0) (made 1) ∧ (made 1).Makes (f 1 0) (made 2) ∧ (f 0 0 == f 1 0) = false) ∧
      (Value.list [] == .string "[]") = false := by
  intro f made
  obtain ⟨symm, trans, -, -, made_apart, -, -, kinds_apart⟩ := beq_partial_equivalence
  have makes (n : Nat) : (made n).Makes (f n 0) (made (n + 1)) :=
    ⟨fun _ _ => Eval.tooDeep, 0, [], ⟨[], ⟨⟨0, 2⟩, ⟨0, 3⟩⟩⟩, ⟨⟨0, 0⟩, ⟨0, 3⟩⟩, by rw [Expr.eval]; rfl⟩
  have first : Value.list [f 0 0, .empty] == .list [f 0 1, .empty] := by rfl
  have second : Value.list [f 0 1, .empty] == .list [f 0 2, .empty] := by rfl
  exact ⟨symm _ _ first, trans _ _ _ first second, ⟨makes 0, makes 1, made_apart _ _ _ _ _ _ (makes 0) .now (makes 1)⟩,
    kinds_apart _ _ (by decide)⟩

end KoreanScript
