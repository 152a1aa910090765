import KoreanScript.Evaluation
import KoreanScript.Proofs.ValueRelation

/-!
Stores that are related frame by frame. Two frames are related if they give related
values to all names that count and lie in related frames. As long as the relation of
frames keeps the order in which they were made, a name that counts then means related
values in related frames, and binding related values or making related frames leaves
the stores related.
-/
namespace KoreanScript

/-- Bindings that give related values to all names that count. -/
def BindingsRelated (counts : String → Prop) (V : Value → Value → Prop) (as bs : List (String × Value)) : Prop :=
  ∀ name, counts name → Option.Rel V (Entries.get? name as) (Entries.get? name bs)

/-- Frames that bind alike and lie in related frames. -/
structure Frame.Related (counts : String → Prop) (V : Value → Value → Prop) (ρ : FrameId → FrameId → Prop)
    (a b : Frame) : Prop where
  bindings : BindingsRelated counts V a.bindings b.bindings
  outer : Option.Rel ρ a.outer b.outer

/-- Which of two frames was made first is the same on both sides. -/
def KeepsOrder (ρ : FrameId → FrameId → Prop) : Prop :=
  ∀ ⦃f g f' g' : FrameId⦄, ρ f g → ρ f' g' → (f < f' ↔ g < g')

/-- Stores in which frames that stand in for each other are related, or are both yet to be made. -/
def Store.FramesRelated (counts : String → Prop) (V : Value → Value → Prop) (ρ : FrameId → FrameId → Prop)
    (s t : Store) : Prop :=
  ∀ ⦃f g : FrameId⦄, ρ f g → Option.Rel (Frame.Related counts V ρ) s.frames[f]? t.frames[g]?

variable {counts : String → Prop} {V : Value → Value → Prop} {ρ : FrameId → FrameId → Prop} {f g f' g' : FrameId}

theorem KeepsOrder.eq_iff (order : KeepsOrder ρ) (pair : ρ f g) (pair' : ρ f' g') : f = f' ↔ g = g' := by
  have before := order pair pair'
  have behind := order pair' pair
  constructor
  · rintro rfl
    exact Nat.le_antisymm (Nat.not_lt.mp fun less => Nat.lt_irrefl f (behind.mpr less))
      (Nat.not_lt.mp fun less => Nat.lt_irrefl f (before.mpr less))
  · rintro rfl
    exact Nat.le_antisymm (Nat.not_lt.mp fun less => Nat.lt_irrefl g (behind.mp less))
      (Nat.not_lt.mp fun less => Nat.lt_irrefl g (before.mp less))

namespace BindingsRelated

theorem nil : BindingsRelated counts V [] [] := fun _ _ => .none
theorem insert {as bs : List (String × Value)} (related : BindingsRelated counts V as bs) (name : String)
    {v w : Value} (values : V v w) : BindingsRelated counts V (Entries.insert name v as) (Entries.insert name w bs) := by
  intro other counted
  rw [Entries.get?_insert, Entries.get?_insert]
  split
  · exact .some values
  · exact related other counted
/-- Parameters of the same names are bound to related arguments. -/
theorem bindParameters (empty : V .empty .empty) {is js : List Identifier}
    (parameters : List.Forall₂ (fun i j => i.name = j.name) is js) {vs ws : List Value}
    (arguments : List.Forall₂ V vs ws) {as bs : List (String × Value)} (related : BindingsRelated counts V as bs) :
    BindingsRelated counts V (KoreanScript.bindParameters is vs as) (KoreanScript.bindParameters js ws bs) := by
  induction parameters generalizing vs ws as bs with
  | nil => exact related
  | cons same _ ih =>
    rw [KoreanScript.bindParameters, KoreanScript.bindParameters, same]
    cases arguments with
    | nil => exact ih .nil (related.insert _ empty)
    | cons first rest => exact ih rest (related.insert _ first)

end BindingsRelated

/-- The frames of calls of related functions. -/
theorem Closure.frame_related (empty : V .empty .empty) {c d : Closure}
    (parameters : List.Forall₂ (fun i j => i.name = j.name) c.parameters d.parameters) (scope : ρ c.scope d.scope)
    {vs ws : List Value} (arguments : List.Forall₂ V vs ws) : (c.frame vs).Related counts V ρ (d.frame ws) :=
  ⟨.bindParameters empty parameters arguments .nil, .some scope⟩

namespace Store.FramesRelated
variable {s t : Store} (related : s.FramesRelated counts V ρ t) (order : KeepsOrder ρ)
include related order

/-- A name that counts means related values in frames that stand in for each other. -/
theorem lookup (pair : ρ f g) {name : String} (counted : counts name) :
    Option.Rel V (s.lookup f name) (t.lookup g name) := by
  rw [Store.lookup, Store.lookup]
  induction f using Nat.strongRecOn generalizing g with
  | _ f ih =>
    rw [Frame.lookup, Frame.lookup]
    rcases rel_cases (related pair) with ⟨left, right⟩ | ⟨a, b, left, right, frame⟩
    · rw [left, right]
      exact .none
    rw [left, right]
    simp only
    rcases rel_cases (frame.bindings name counted) with ⟨left, right⟩ | ⟨v, w, left, right, values⟩
    · rw [left, right]
      simp only
      rcases rel_cases frame.outer with ⟨left, right⟩ | ⟨c, d, left, right, around⟩
      · rw [left, right]
        exact .none
      · rw [left, right]
        simp only [order around pair]
        split
        · next less => exact ih c ((order around pair).mpr less) around
        · exact .none
    · rw [left, right]
      exact .some values
theorem bind (pair : ρ f g) (name : String) {v w : Value} (values : V v w) :
    (s.bind f name v).FramesRelated counts V ρ (t.bind g name w) := by
  intro f' g' pair'
  simp only [Store.bind, Array.getElem?_modify, order.eq_iff pair pair']
  split
  · rcases rel_cases (related pair') with ⟨left, right⟩ | ⟨a, b, left, right, frame⟩
    · rw [left, right]
      exact .none
    · rw [left, right]
      exact .some ⟨frame.bindings.insert name values, frame.outer⟩
  · exact related pair'
theorem push (next : ρ s.next t.next) {a b : Frame} (frame : a.Related counts V ρ b) :
    (s.push a).FramesRelated counts V ρ (t.push b) := by
  intro f g pair
  have same : f = s.frames.size ↔ g = t.frames.size := order.eq_iff pair next
  simp only [Store.push, Array.getElem?_push, same]
  split
  · exact .some frame
  · exact related pair

end Store.FramesRelated
end KoreanScript
