import KoreanScript.Proofs.Reach

/-!
Where the functions in a value come from. Operators and builtins make no functions: those
in what they give were in what they are given. A relation that holds of functions only if
they are the same is a way to say this, as operators and builtins keep relations up.
-/
namespace KoreanScript

variable {P : Closure → Prop}

/-- The same function, of which `P` holds. -/
def Closure.SameWith (P : Closure → Prop) (c d : Closure) : Prop := c = d ∧ P c

namespace Value

mutual
theorem Related.same : ∀ {v w : Value}, v.Related (Closure.SameWith P) w → v = w ∧ ∀ c ∈ v.closures, P c
  | .number _, _, .number _ | .string _, _, .string _ | .boolean _, _, .boolean _ | .empty, _, .empty =>
    ⟨rfl, by simp [closures]⟩
  | .function _, _, .function related => by
    obtain ⟨rfl, holds⟩ := related
    exact ⟨rfl, by simpa [closures] using holds⟩
  | .list _, _, .list all => by
    obtain ⟨rfl, holds⟩ := Related.same_all all
    exact ⟨rfl, by simpa only [closures] using holds⟩
  | .table _, _, .table all => by
    obtain ⟨rfl, holds⟩ := Related.same_entries all
    exact ⟨rfl, by simpa only [closures] using holds⟩
theorem Related.same_all : ∀ {vs ws : List Value}, List.Forall₂ (Related (Closure.SameWith P)) vs ws →
    vs = ws ∧ ∀ c ∈ closuresAll vs, P c
  | [], _, .nil => ⟨rfl, by simp [closuresAll]⟩
  | _ :: _, _, .cons first rest => by
    obtain ⟨rfl, holds⟩ := Related.same first
    obtain ⟨rfl, holds'⟩ := Related.same_all rest
    exact ⟨rfl, by rw [closuresAll]; exact List.forall_mem_append.mpr ⟨holds, holds'⟩⟩
theorem Related.same_entries : ∀ {es fs : List (Value × Value)},
    List.Forall₂ (EntryRelated (Closure.SameWith P)) es fs → es = fs ∧ ∀ c ∈ closuresEntries es, P c
  | [], _, .nil => ⟨rfl, by simp [closuresEntries]⟩
  | (_, _) :: _, _, .cons (.mk key value) rest => by
    obtain ⟨rfl, holds⟩ := Related.same key
    obtain ⟨rfl, holds'⟩ := Related.same value
    obtain ⟨rfl, holds''⟩ := Related.same_entries rest
    refine ⟨rfl, ?_⟩
    rw [closuresEntries, List.forall_mem_append, List.forall_mem_append]
    exact ⟨⟨holds, holds'⟩, holds''⟩
end
/-- All functions in a value are such that `P`. -/
def Only (P : Closure → Prop) (v : Value) : Prop := ∀ c ∈ v.closures, P c

theorem related_sameWith_iff {v w : Value} : v.Related (Closure.SameWith P) w ↔ v = w ∧ v.Only P := by
  constructor
  · exact Related.same
  · rintro ⟨rfl, holds⟩
    exact .self v fun c member => ⟨rfl, holds c member⟩
theorem Only.mono {Q : Closure → Prop} (weaker : ∀ c, P c → Q c) {v : Value} (only : v.Only P) : v.Only Q :=
  fun c member => weaker c (only c member)
theorem Only.empty : Value.empty.Only P := by simp [Only, closures]
theorem Only.number (x : Float) : (Value.number x).Only P := by simp [Only, closures]
theorem Only.string (s : String) : (Value.string s).Only P := by simp [Only, closures]
theorem Only.boolean (b : Bool) : (Value.boolean b).Only P := by simp [Only, closures]
theorem Only.function {c : Closure} (holds : P c) : (Value.function c).Only P := by simpa [Only, closures] using holds
theorem only_function_iff {c : Closure} : (Value.function c).Only P ↔ P c := by simp [Only, closures]
theorem Only.list {vs : List Value} (all : ∀ v ∈ vs, v.Only P) : (Value.list vs).Only P := by
  intro c member
  rw [closures, mem_closuresAll] at member
  obtain ⟨v, element, inside⟩ := member
  exact all v element c inside
theorem Only.insert {es : Table} (only : (Value.table es).Only P) {k v : Value} (key : k.Only P) (value : v.Only P)
    (hashable : k.isKey) : (Value.table (Entries.insert k v es)).Only P := by
  have keys : k.Related (Closure.SameWith P) k := related_sameWith_iff.mpr ⟨rfl, key⟩
  have values : v.Related (Closure.SameWith P) v := related_sameWith_iff.mpr ⟨rfl, value⟩
  cases related_sameWith_iff.mpr ⟨rfl, only⟩ with
  | table entries => exact (Related.table (Entries.insert_related keys values hashable entries)).same.2

end Value

section
variable {v w u : Value}

theorem PrefixOperator.compute?_only {op : PrefixOperator} (computed : op.compute? v = some w) : w.Only P :=
  (PrefixOperator.compute?_sound computed).closures
theorem InfixOperator.apply_only {op : InfixOperator} (applied : op.apply v w = .ok u) : u.Only P :=
  (InfixOperator.apply_sound applied).closures
/-- The functions in what a builtin gives were in its arguments. -/
theorem Builtin.answer_only {b : Builtin} {vs : List Value} (arguments : ∀ v ∈ vs, v.Only P)
    (answered : b.answer vs = .ok w) : w.Only P := by
  have self : List.Forall₂ (Value.Related (Closure.SameWith P)) vs vs :=
    List.forall₂_same.mpr fun v member => Value.related_sameWith_iff.mpr ⟨rfl, arguments v member⟩
  have related := b.answer_related self
  rw [answered] at related
  cases related with
  | ok related => exact related.same.2

end

end KoreanScript
