import Mathlib
import KoreanScript.Proofs.FloatBits
import KoreanScript.Value

/-!
Equality of values. It is symmetric and transitive, whatever the values hold; only the
undefined number is not equal to itself. The two zeros are the only numbers that are
equal without being the same.
-/
namespace KoreanScript

/-! ### Numbers -/

namespace Number
open Float.Model (UnpackedFloat)

/-- What the bits of a double stand for. -/
abbrev parts (x : Float) : UnpackedFloat := x.toModel.unpack

/-- Numbers that are the same, or zeros of any sign. -/
inductive Equal : UnpackedFloat → UnpackedFloat → Prop
  | zero (s t : UnpackedFloat.Sign) : Equal (.zero s) (.zero t)
  | same {u : UnpackedFloat} : u ≠ .notANumber → Equal u u

theorem compare_eq_iff (u v : UnpackedFloat) : u.compare v = some .eq ↔ Equal u v := by
  constructor
  · intro equal
    cases u with
    | notANumber => cases equal
    | infinity s =>
      cases v with
      | infinity t => cases s <;> cases t <;> first | exact .same (by simp) | cases equal
      | notANumber | zero _ | finite _ _ _ _ => cases s <;> cases equal
    | zero s =>
      cases v with
      | zero t => exact .zero s t
      | infinity t => cases t <;> cases equal
      | finite t _ _ _ => cases t <;> cases equal
      | notANumber => cases equal
    | finite s m e pos =>
      cases v with
      | finite t n f pos' =>
        have same : ((compare e f).then (compare m n)) = .eq → s = t →
            Equal (.finite s m e pos) (.finite t n f pos') := by
          intro equal sign
          rw [Ordering.then_eq_eq, Std.LawfulEqCmp.compare_eq_iff_eq, Std.LawfulEqCmp.compare_eq_iff_eq] at equal
          obtain ⟨rfl, rfl⟩ := equal
          subst sign
          exact .same (by simp)
        cases s <;> cases t
        · simp only [UnpackedFloat.compare, Option.some.injEq, Ordering.swap_eq_eq] at equal
          exact same equal rfl
        · cases equal
        · cases equal
        · simp only [UnpackedFloat.compare, Option.some.injEq] at equal
          exact same equal rfl
      | infinity t => cases s <;> cases t <;> cases equal
      | zero t => cases s <;> cases equal
      | notANumber => cases s <;> cases equal
  · rintro (⟨s, t⟩ | defined)
    · rfl
    · cases u with
      | notANumber => exact absurd rfl defined
      | infinity s => cases s <;> rfl
      | zero s => rfl
      | finite s m e pos => cases s <;> simp [UnpackedFloat.compare]
theorem beq_iff {x y : Float} : x == y ↔ Equal (parts x) (parts y) := by
  rw [← compare_eq_iff]
  show ((parts x).compare (parts y) == some .eq) = true ↔ _
  rw [beq_iff_eq]
theorem Equal.symm {u v : UnpackedFloat} (equal : Equal u v) : Equal v u := by
  cases equal with
  | zero s t => exact .zero t s
  | same defined => exact .same defined
theorem Equal.trans {u v w : UnpackedFloat} (first : Equal u v) (rest : Equal v w) : Equal u w := by
  cases first with
  | same _ => exact rest
  | zero s t =>
    cases rest with
    | zero _ r => exact .zero s r
    | same _ => exact .zero s t
theorem Equal.defined {u v : UnpackedFloat} (equal : Equal u v) : u.isNaN = false := by
  cases equal with
  | zero _ _ => rfl
  | same defined =>
    cases u with
    | notANumber => exact absurd rfl defined
    | infinity _ | zero _ | finite _ _ _ _ => rfl

theorem beq_comm (x y : Float) : (x == y) = (y == x) := by
  rw [Bool.eq_iff_iff, beq_iff, beq_iff]
  exact ⟨Equal.symm, Equal.symm⟩
theorem beq_trans {x y z : Float} (first : x == y) (rest : y == z) : x == z :=
  beq_iff.mpr ((beq_iff.mp first).trans (beq_iff.mp rest))
/-- Only the undefined number differs from itself. -/
theorem beq_self {x : Float} (defined : x.isNaN = false) : x == x := by
  refine beq_iff.mpr (.same fun undefined => ?_)
  have undefined : (parts x).isNaN = true := by rw [undefined]; rfl
  exact absurd undefined (by rw [show (parts x).isNaN = x.isNaN from rfl, defined]; simp)
/-- The undefined number is equal to none. -/
theorem isNaN_of_beq {x y : Float} (equal : x == y) : x.isNaN = false := (beq_iff.mp equal).defined

end Number

/-! ### All values -/

namespace Value

mutual
theorem same_comm : ∀ v w : Value, same v w = same w v
  | .number x, w => by
    cases w with
    | number y => exact Number.beq_comm x y
    | _ => rfl
  | .string s, w => by
    cases w with
    | string t => exact BEq.comm (a := s) (b := t)
    | _ => rfl
  | .boolean b, w => by
    cases w with
    | boolean c => exact BEq.comm (a := b) (b := c)
    | _ => rfl
  | .function f, w => by
    cases w with
    | function g => exact BEq.comm (a := f.mark) (b := g.mark)
    | _ => rfl
  | .empty, w => by cases w <;> rfl
  | .list vs, w => by
    cases w with
    | list ws =>
      rw [same, same]
      exact sameAll_comm vs ws
    | _ => rfl
  | .table es, w => by
    cases w with
    | table fs =>
      rw [same, same]
      exact sameEntries_comm es fs
    | _ => rfl
theorem sameAll_comm : ∀ vs ws : List Value, sameAll vs ws = sameAll ws vs
  | [], [] | [], _ :: _ | _ :: _, [] => rfl
  | v :: vs, w :: ws => by rw [sameAll, sameAll, same_comm v w, sameAll_comm vs ws]
theorem sameEntries_comm : ∀ es fs : List (Value × Value), sameEntries es fs = sameEntries fs es
  | [], [] | [], _ :: _ | _ :: _, [] => rfl
  | (k, v) :: es, (l, w) :: fs => by
    rw [sameEntries, sameEntries, same_comm k l, same_comm v w, sameEntries_comm es fs]
end

mutual
theorem same_trans : ∀ {u v w : Value}, same u v → same v w → same u w
  | .number _, v, w, first, rest => by
    cases v with
    | number _ =>
      cases w with
      | number _ => exact Number.beq_trans first rest
      | _ => cases rest
    | _ => cases first
  | .string s, v, w, first, rest => by
    cases v with
    | string t =>
      cases (beq_iff_eq.mp first : s = t)
      exact rest
    | _ => cases first
  | .boolean b, v, w, first, rest => by
    cases v with
    | boolean c =>
      cases (beq_iff_eq.mp first : b = c)
      exact rest
    | _ => cases first
  | .function f, v, w, first, rest => by
    cases v with
    | function g =>
      cases w with
      | function h =>
        have left : f.mark = g.mark := beq_iff_eq.mp first
        have right : g.mark = h.mark := beq_iff_eq.mp rest
        exact beq_iff_eq.mpr (left.trans right)
      | _ => cases rest
    | _ => cases first
  | .empty, v, w, first, rest => by
    cases v with
    | empty => exact rest
    | _ => cases first
  | .list us, v, w, first, rest => by
    cases v with
    | list vs =>
      cases w with
      | list ws =>
        rw [same] at first rest ⊢
        exact sameAll_trans first rest
      | _ => cases rest
    | _ => cases first
  | .table ds, v, w, first, rest => by
    cases v with
    | table es =>
      cases w with
      | table fs =>
        rw [same] at first rest ⊢
        exact sameEntries_trans first rest
      | _ => cases rest
    | _ => cases first
theorem sameAll_trans : ∀ {us vs ws : List Value}, sameAll us vs → sameAll vs ws → sameAll us ws
  | [], [], _, _, rest => rest
  | [], _ :: _, _, first, _ | _ :: _, [], _, first, _ | _ :: _, _ :: _, [], _, first => by cases first
  | u :: us, v :: vs, w :: ws, first, rest => by
    rw [sameAll, Bool.and_eq_true] at first rest ⊢
    exact ⟨same_trans first.1 rest.1, sameAll_trans first.2 rest.2⟩
theorem sameEntries_trans : ∀ {ds es fs : List (Value × Value)}, sameEntries ds es → sameEntries es fs → sameEntries ds fs
  | [], [], _, _, rest => rest
  | [], _ :: _, _, first, _ | _ :: _, [], _, first, _ | _ :: _, _ :: _, [], _, first => by cases first
  | (k, u) :: ds, (l, v) :: es, (m, w) :: fs, first, rest => by
    simp only [sameEntries, Bool.and_eq_true] at first rest ⊢
    exact ⟨⟨same_trans first.1.1 rest.1.1, same_trans first.1.2 rest.1.2⟩, sameEntries_trans first.2 rest.2⟩
end

theorem beq_comm (v w : Value) : (v == w) = (w == v) := same_comm v w
theorem beq_trans {u v w : Value} (first : u == v) (rest : v == w) : u == w := same_trans first rest
instance : PartialEquivBEq Value where
  symm {v w} equal := (beq_comm v w).symm.trans equal
  trans := beq_trans

end Value
end KoreanScript
