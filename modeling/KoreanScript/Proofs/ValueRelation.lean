import Mathlib.Data.List.Forall2
import KoreanScript.EvalError
import KoreanScript.Operation

/-!
Values that are related as the functions in them are: built in the same way from the
same numbers, texts and truth values and from related functions. Operators and builtins
never look into a function, so they cannot tell such values apart, and as long as related
functions have one text they show them by one text.
-/
namespace KoreanScript

mutual
inductive Value.Related (κ : Closure → Closure → Prop) : Value → Value → Prop
  | number (x : Float) : Value.Related κ (.number x) (.number x)
  | string (s : String) : Value.Related κ (.string s) (.string s)
  | boolean (b : Bool) : Value.Related κ (.boolean b) (.boolean b)
  | function {c d : Closure} : κ c d → Value.Related κ (.function c) (.function d)
  | empty : Value.Related κ .empty .empty
  | list {vs ws : List Value} :
    List.Forall₂ (Value.Related κ) vs ws → Value.Related κ (.list vs) (.list ws)
  | table {es fs : Table} :
    List.Forall₂ (Value.EntryRelated κ) es fs → Value.Related κ (.table es) (.table fs)
inductive Value.EntryRelated (κ : Closure → Closure → Prop) : Value × Value → Value × Value → Prop
  | mk {k l v w : Value} : Value.Related κ k l → Value.Related κ v w → Value.EntryRelated κ (k, v) (l, w)
end

/-- Related functions have one text. -/
def OneText (κ : Closure → Closure → Prop) : Prop := ∀ c d, κ c d → c.render = d.render

variable {κ : Closure → Closure → Prop} {v w k l : Value}

namespace Value

theorem Related.kind_eq (related : v.Related κ w) : v.kind = w.kind := by
  cases related <;> rfl
theorem Related.isKey_eq (related : v.Related κ w) : v.isKey = w.isKey := by
  cases related <;> rfl
theorem Related.describe_eq (related : v.Related κ w) : v.describe = w.describe := by
  cases related <;> rfl
/-- No key is told apart from what it is related to. -/
theorem Related.beq_key (related : v.Related κ w) (keys : k.Related κ l) (hashable : k.isKey) :
    (v == k) = (w == l) := by
  cases keys with
  | number x => cases related <;> rfl
  | string s => cases related <;> rfl
  | boolean b => cases related <;> rfl
  | function _ | empty | list _ | table _ => cases hashable
theorem Related.render_key (keys : k.Related κ l) (hashable : k.isKey) : k.render = l.render := by
  cases keys with
  | number _ | string _ | boolean _ => rfl
  | function _ | empty | list _ | table _ => cases hashable

mutual
theorem Related.refl (self : ∀ c, κ c c) : ∀ v : Value, v.Related κ v
  | .number x => .number x
  | .string s => .string s
  | .boolean b => .boolean b
  | .function c => .function (self c)
  | .empty => .empty
  | .list vs => .list (Related.refl_all self vs)
  | .table es => .table (Related.refl_entries self es)
theorem Related.refl_all (self : ∀ c, κ c c) : ∀ vs : List Value, List.Forall₂ (Related κ) vs vs
  | [] => .nil
  | v :: vs => .cons (Related.refl self v) (Related.refl_all self vs)
theorem Related.refl_entries (self : ∀ c, κ c c) : ∀ es : Table, List.Forall₂ (EntryRelated κ) es es
  | [] => .nil
  | (k, v) :: es => .cons (.mk (Related.refl self k) (Related.refl self v)) (Related.refl_entries self es)
end

/-! ### The text of a value -/

mutual
theorem Related.render_eq (texts : OneText κ) : ∀ {v w : Value}, v.Related κ w → v.render = w.render
  | .number _, _, .number _ | .string _, _, .string _ | .boolean _, _, .boolean _ | .empty, _, .empty => rfl
  | .function _, _, .function related => by rw [render, render, texts _ _ related]
  | .list _, _, .list all => by rw [render, render, Related.renderAll_eq texts all]
  | .table _, _, .table all => by rw [render, render, Related.renderEntries_eq texts all]
theorem Related.renderAll_eq (texts : OneText κ) : ∀ {vs ws : List Value}, List.Forall₂ (Related κ) vs ws →
    renderAll vs = renderAll ws
  | [], _, .nil => rfl
  | _ :: _, _, .cons first rest => by
    rw [renderAll, renderAll, Related.render_eq texts first, Related.renderAll_eq texts rest]
theorem Related.renderEntries_eq (texts : OneText κ) :
    ∀ {es fs : List (Value × Value)}, List.Forall₂ (EntryRelated κ) es fs → renderEntries es = renderEntries fs
  | [], _, .nil => rfl
  | (_, _) :: _, _, .cons (.mk key value) rest => by
    rw [renderEntries, renderEntries, Related.render_eq texts key, Related.render_eq texts value,
      Related.renderEntries_eq texts rest]
end

end Value

/-! ### Tables and lists -/

open Value (EntryRelated)

theorem Entries.insert_related (keys : k.Related κ l) (values : v.Related κ w) (hashable : k.isKey) {es fs : Table}
    (related : List.Forall₂ (EntryRelated κ) es fs) :
    List.Forall₂ (EntryRelated κ) (Entries.insert k v es) (Entries.insert l w fs) := by
  induction related with
  | nil => exact .cons (.mk keys values) .nil
  | cons first rest ih =>
    obtain ⟨stored, old⟩ := first
    rw [Entries.insert, Entries.insert, stored.beq_key keys hashable]
    split
    · exact .cons (.mk stored values) rest
    · exact .cons (.mk stored old) ih
theorem Entries.get?_related (keys : k.Related κ l) (hashable : k.isKey) {es fs : Table}
    (related : List.Forall₂ (EntryRelated κ) es fs) :
    Option.Rel (Value.Related κ) (Entries.get? k es) (Entries.get? l fs) := by
  induction related with
  | nil => exact .none
  | cons first rest ih =>
    obtain ⟨stored, value⟩ := first
    rw [Entries.get?_cons, Entries.get?_cons, stored.beq_key keys hashable]
    split
    · exact .some value
    · exact ih
theorem Entries.erase_related (keys : k.Related κ l) (hashable : k.isKey) {es fs : Table}
    (related : List.Forall₂ (EntryRelated κ) es fs) :
    List.Forall₂ (EntryRelated κ) (Entries.erase k es) (Entries.erase l fs) := by
  induction related with
  | nil => exact .nil
  | cons first rest ih =>
    obtain ⟨stored, value⟩ := first
    simp only [Entries.erase, List.eraseP_cons, Bool.cond_eq_ite, stored.beq_key keys hashable] at ih ⊢
    split
    · exact rest
    · exact .cons (.mk stored value) ih

section
variable {α β : Type} {R : α → β → Prop} {as : List α} {bs : List β}

theorem rel_cases {a : Option α} {b : Option β} (related : Option.Rel R a b) :
    (a = none ∧ b = none) ∨ ∃ x y, a = some x ∧ b = some y ∧ R x y := by
  cases related with
  | none => exact .inl ⟨rfl, rfl⟩
  | some related => exact .inr ⟨_, _, rfl, rfl, related⟩
theorem rel_self {S : α → α → Prop} {o : Option α} (holds : ∀ a, o = some a → S a a) : Option.Rel S o o := by
  cases o with
  | none => exact .none
  | some a => exact .some (holds a rfl)
theorem forall₂_insertIdx {a : α} {b : β} (related : R a b) (all : List.Forall₂ R as bs) (n : Nat) :
    List.Forall₂ R (as.insertIdx n a) (bs.insertIdx n b) := by
  induction all generalizing n with
  | nil =>
    cases n with
    | zero => exact .cons related .nil
    | succ n => exact .nil
  | cons first rest ih =>
    cases n with
    | zero => exact .cons related (.cons first rest)
    | succ n => exact .cons first (ih n)
theorem forall₂_eraseIdx (all : List.Forall₂ R as bs) (n : Nat) :
    List.Forall₂ R (as.eraseIdx n) (bs.eraseIdx n) := by
  induction all generalizing n with
  | nil => exact .nil
  | cons first rest ih =>
    cases n with
    | zero => exact rest
    | succ n => exact .cons first (ih n)

end

/-! ### Builtins -/

namespace Builtin

/-- Answers that are related: related values, or one refusal. -/
inductive AnswerRelated (κ : Closure → Closure → Prop) :
    Except Refusal Value → Except Refusal Value → Prop
  | ok {v w : Value} : v.Related κ w → AnswerRelated κ (.ok v) (.ok w)
  | error (r : Refusal) : AnswerRelated κ (.error r) (.error r)

/-- Related values stand for one index, or none. -/
theorem index_related (related : v.Related κ w) {a b : Nat} (same : a = b) :
    (∃ n below below', index a v = .ok ⟨n, below⟩ ∧ index b w = .ok ⟨n, below'⟩) ∨
      ∃ r, index a v = .error r ∧ index b w = .error r := by
  subst same
  have agree : index a v = index a w := by
    cases related <;> rfl
  rw [agree]
  cases index a w with
  | ok n => exact .inl ⟨n, n.isLt, n.isLt, rfl, rfl⟩
  | error r => exact .inr ⟨r, rfl, rfl⟩
theorem checkKey_related (related : v.Related κ w) : checkKey v = checkKey w := by
  rw [checkKey, checkKey, related.isKey_eq, related.describe_eq]

variable {vs ws : List Value} {es fs : Table}

theorem answer_insertAt_related (elements : List.Forall₂ (Value.Related κ) vs ws) (indices : k.Related κ l)
    (values : v.Related κ w) :
    AnswerRelated κ (answer .insert [.list vs, k, v]) (answer .insert [.list ws, l, w]) := by
  have length : vs.length + 1 = ws.length + 1 := by rw [elements.length_eq]
  rw [answer_insertAt, answer_insertAt]
  rcases index_related indices length with ⟨n, below, below', left, right⟩ | ⟨r, left, right⟩
  · rw [left, right]
    exact .ok (.list (forall₂_insertIdx values elements n))
  · rw [left, right]
    exact .error r
theorem answer_insertKey_related (entries : List.Forall₂ (EntryRelated κ) es fs) (keys : k.Related κ l)
    (values : v.Related κ w) :
    AnswerRelated κ (answer .insert [.table es, k, v]) (answer .insert [.table fs, l, w]) := by
  rw [answer_insertKey, answer_insertKey, checkKey_related keys]
  rw [checkKey]
  split
  · next hashable => exact .ok (.table (Entries.insert_related keys values (keys.isKey_eq.trans hashable) entries))
  · exact .error _
theorem answer_removeAt_related (elements : List.Forall₂ (Value.Related κ) vs ws) (indices : k.Related κ l) :
    AnswerRelated κ (answer .remove [.list vs, k]) (answer .remove [.list ws, l]) := by
  rw [answer_removeAt, answer_removeAt]
  rcases index_related indices elements.length_eq with ⟨n, below, below', left, right⟩ | ⟨r, left, right⟩
  · rw [left, right]
    exact .ok (.list (forall₂_eraseIdx elements n))
  · rw [left, right]
    exact .error r
theorem answer_findAt_related (elements : List.Forall₂ (Value.Related κ) vs ws) (indices : k.Related κ l) :
    AnswerRelated κ (answer .find [.list vs, k]) (answer .find [.list ws, l]) := by
  rw [answer_findAt, answer_findAt]
  rcases index_related indices elements.length_eq with ⟨n, below, below', left, right⟩ | ⟨r, left, right⟩
  · rw [left, right]
    exact .ok (elements.get below below')
  · rw [left, right]
    exact .error r
theorem answer_removeKey_related (entries : List.Forall₂ (EntryRelated κ) es fs) (keys : k.Related κ l) :
    AnswerRelated κ (answer .remove [.table es, k]) (answer .remove [.table fs, l]) := by
  rw [answer_removeKey, answer_removeKey, checkKey_related keys]
  rw [checkKey]
  split
  · next hashable =>
    have hashable' := keys.isKey_eq.trans hashable
    rcases rel_cases (Entries.get?_related keys hashable' entries) with ⟨left, right⟩ | ⟨_, _, left, right, _⟩
    · rw [left, right, keys.render_key hashable']
      exact .error _
    · rw [left, right]
      exact .ok (.table (Entries.erase_related keys hashable' entries))
  · exact .error _
theorem answer_findKey_related (entries : List.Forall₂ (EntryRelated κ) es fs) (keys : k.Related κ l) :
    AnswerRelated κ (answer .find [.table es, k]) (answer .find [.table fs, l]) := by
  rw [answer_findKey, answer_findKey, checkKey_related keys]
  rw [checkKey]
  split
  · next hashable =>
    have hashable' := keys.isKey_eq.trans hashable
    rcases rel_cases (Entries.get?_related keys hashable' entries) with ⟨left, right⟩ | ⟨_, _, left, right, value⟩
    · rw [left, right, keys.render_key hashable']
      exact .error _
    · rw [left, right]
      exact .ok value
  · exact .error _

theorem count_related (arguments : List.Forall₂ (Value.Related κ) vs ws) (allowed : List Nat) :
    AnswerRelated κ (.error (.count vs.length allowed)) (.error (.count ws.length allowed)) := by
  rw [arguments.length_eq]
  exact .error _
/-- A builtin answers related arguments in one way. -/
theorem answer_related (b : Builtin) (arguments : List.Forall₂ (Value.Related κ) vs ws) :
    AnswerRelated κ (b.answer vs) (b.answer ws) := by
  have whole := arguments
  cases b with
  | write => exact .ok .empty
  | length =>
    rcases arguments with _ | ⟨first, _ | ⟨second, rest⟩⟩
    · exact .error _
    · cases first with
      | list elements =>
        rw [answer_countElements, answer_countElements, elements.length_eq]
        exact .ok (.number _)
      | table entries =>
        rw [answer_countEntries, answer_countEntries, entries.length_eq]
        exact .ok (.number _)
      | string s => exact .ok (.number _)
      | number _ | boolean _ | function _ | empty => exact .error _
    · cases first <;> exact count_related whole _
  | insert =>
    rcases arguments with _ | ⟨first, _ | ⟨second, _ | ⟨third, _ | ⟨fourth, rest⟩⟩⟩⟩
    · exact .error _
    · cases first <;> exact .error _
    · cases first with
      | list elements => exact .ok (.list (List.rel_append elements (.cons second .nil)))
      | table _ | number _ | string _ | boolean _ | function _ | empty => exact .error _
    · cases first with
      | list elements => exact answer_insertAt_related elements second third
      | table entries => exact answer_insertKey_related entries second third
      | number _ | string _ | boolean _ | function _ | empty => exact .error _
    · cases first <;> exact count_related whole _
  | remove =>
    rcases arguments with _ | ⟨first, _ | ⟨second, _ | ⟨third, rest⟩⟩⟩
    · exact .error _
    · cases first <;> exact .error _
    · cases first with
      | list elements => exact answer_removeAt_related elements second
      | table entries => exact answer_removeKey_related entries second
      | number _ | string _ | boolean _ | function _ | empty => exact .error _
    · cases first <;> exact count_related whole _
  | find =>
    rcases arguments with _ | ⟨first, _ | ⟨second, _ | ⟨third, rest⟩⟩⟩
    · exact .error _
    · cases first <;> exact .error _
    · cases first with
      | list elements => exact answer_findAt_related elements second
      | table entries => exact answer_findKey_related entries second
      | number _ | string _ | boolean _ | function _ | empty => exact .error _
    · cases first <;> exact count_related whole _
theorem line?_related (texts : OneText κ) (b : Builtin) (arguments : List.Forall₂ (Value.Related κ) vs ws) :
    b.line? vs = b.line? ws := by
  have same : vs.map Value.render = ws.map Value.render := by
    induction arguments with
    | nil => rfl
    | cons first _ ih => rw [List.map_cons, List.map_cons, first.render_eq texts, ih]
  cases b with
  | write => rw [line?, line?, same]
  | length | insert | remove | find => rfl

end Builtin

/-! ### Operators -/

theorem PrefixOperator.compute?_related (op : PrefixOperator) (related : v.Related κ w) :
    Option.Rel (Value.Related κ) (op.compute? v) (op.compute? w) := by
  cases op with
  | plus =>
    cases related with
    | number x => exact .some (.number x)
    | string _ | boolean _ | function _ | empty | list _ | table _ => exact .none
  | minus =>
    cases related with
    | number x => exact .some (.number (-x))
    | string _ | boolean _ | function _ | empty | list _ | table _ => exact .none
  | bang =>
    cases related with
    | boolean b => exact .some (.boolean !b)
    | number _ | string _ | function _ | empty | list _ | table _ => exact .none

namespace InfixOperator

/-- The value of an operator is a number or a truth value. -/
theorem compute?_related (op : InfixOperator) (left : v.Related κ w) (right : k.Related κ l) :
    Option.Rel (Value.Related κ) (op.compute? v k) (op.compute? w l) := by
  have truth : ∀ o : Option Bool, Option.Rel (Value.Related κ) (o.map Value.boolean) (o.map Value.boolean) := by
    intro o
    cases o with
    | none => exact .none
    | some b => exact .some (.boolean b)
  cases left with
  | number x =>
    cases right with
    | number y =>
      simp only [compute?]
      split
      · exact .some (.number _)
      · exact truth _
    | string _ | boolean _ | function _ | empty | list _ | table _ => exact .none
  | string s =>
    cases right with
    | string t => exact truth _
    | number _ | boolean _ | function _ | empty | list _ | table _ => exact .none
  | boolean b =>
    cases right with
    | boolean c =>
      simp only [compute?]
      split
      · exact truth _
      · exact .none
    | number _ | string _ | function _ | empty | list _ | table _ => exact .none
  | function _ | empty | list _ | table _ => exact .none
/-- An operator has related values, or blames operands of one kind. -/
theorem apply_related (op : InfixOperator) (left : v.Related κ w) (right : k.Related κ l) :
    (∃ a b, op.apply v k = .ok a ∧ op.apply w l = .ok b ∧ a.Related κ b) ∨
      ∃ m, op.apply v k = .error m ∧ op.apply w l = .error m := by
  have values := op.compute?_related left right
  rw [apply, apply, left.kind_eq, right.kind_eq]
  rcases rel_cases values with ⟨left, right⟩ | ⟨a, b, left, right, related⟩
  · rw [left, right]
    by_cases accepted : w.kind ∈ op.accepts
    · simp only [if_pos accepted]
      exact .inr ⟨_, rfl, rfl⟩
    · simp only [if_neg accepted]
      exact .inr ⟨_, rfl, rfl⟩
  · rw [left, right]
    exact .inl ⟨a, b, rfl, rfl, related⟩

end InfixOperator
end KoreanScript
