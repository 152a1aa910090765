import KoreanScript.Proofs.Likeness
import KoreanScript.Proofs.ValueRelation

/-!
Values that are alike: built in the same way from the same numbers, texts and
truth values and from functions whose literals are alike and whose frames are
related. Which evaluation made a function does not count. Values that are alike are
related by the likeness of the functions in them.
-/
namespace KoreanScript

/-- Functions that are alike under a relation between frames. -/
structure Closure.Alike (L : Likeness) (ρ : FrameId → FrameId → Prop) (c d : Closure) : Prop where
  parameters : List.Forall₂ L.Named c.parameters d.parameters
  body : c.body.Alike L d.body
  scope : ρ c.scope d.scope

mutual
inductive Value.Alike (L : Likeness) (ρ : FrameId → FrameId → Prop) : Value → Value → Prop
  | number (x : Float) : Value.Alike L ρ (.number x) (.number x)
  | string (s : String) : Value.Alike L ρ (.string s) (.string s)
  | boolean (b : Bool) : Value.Alike L ρ (.boolean b) (.boolean b)
  | function {c d : Closure} : c.Alike L ρ d → Value.Alike L ρ (.function c) (.function d)
  | empty : Value.Alike L ρ .empty .empty
  | list {vs ws : List Value} :
    List.Forall₂ (Value.Alike L ρ) vs ws → Value.Alike L ρ (.list vs) (.list ws)
  | table {es fs : Table} :
    List.Forall₂ (Value.EntryAlike L ρ) es fs → Value.Alike L ρ (.table es) (.table fs)
inductive Value.EntryAlike (L : Likeness) (ρ : FrameId → FrameId → Prop) : Value × Value → Value × Value → Prop
  | mk {k l v w : Value} : Value.Alike L ρ k l → Value.Alike L ρ v w → Value.EntryAlike L ρ (k, v) (l, w)
end

variable {L : Likeness} {ρ : FrameId → FrameId → Prop}

theorem Closure.Alike.render_eq {c d : Closure} (alike : c.Alike L ρ d) : c.render = d.render := by
  rw [Closure.render, Closure.render, Expr.render, Expr.render, names_eq alike.parameters, alike.body.render_eq]

namespace Value

mutual
theorem Alike.related : ∀ {v w : Value}, v.Alike L ρ w → v.Related (Closure.Alike L ρ) w
  | _, _, .number x => .number x
  | _, _, .string s => .string s
  | _, _, .boolean b => .boolean b
  | _, _, .function alike => .function alike
  | _, _, .empty => .empty
  | .list _, _, .list alikes => .list (Alike.related_all alikes)
  | .table _, _, .table alikes => .table (Alike.related_entries alikes)
theorem Alike.related_all : ∀ {vs ws : List Value}, List.Forall₂ (Alike L ρ) vs ws →
    List.Forall₂ (Related (Closure.Alike L ρ)) vs ws
  | [], _, .nil => .nil
  | _ :: _, _, .cons first rest => .cons (Alike.related first) (Alike.related_all rest)
theorem Alike.related_entries : ∀ {es fs : List (Value × Value)}, List.Forall₂ (EntryAlike L ρ) es fs →
    List.Forall₂ (EntryRelated (Closure.Alike L ρ)) es fs
  | [], _, .nil => .nil
  | (_, _) :: _, _, .cons (.mk key value) rest =>
    .cons (.mk (Alike.related key) (Alike.related value)) (Alike.related_entries rest)
end
mutual
theorem Related.alike : ∀ {v w : Value}, v.Related (Closure.Alike L ρ) w → v.Alike L ρ w
  | _, _, .number x => .number x
  | _, _, .string s => .string s
  | _, _, .boolean b => .boolean b
  | _, _, .function alike => .function alike
  | _, _, .empty => .empty
  | .list _, _, .list all => .list (Related.alike_all all)
  | .table _, _, .table all => .table (Related.alike_entries all)
theorem Related.alike_all : ∀ {vs ws : List Value}, List.Forall₂ (Related (Closure.Alike L ρ)) vs ws →
    List.Forall₂ (Alike L ρ) vs ws
  | [], _, .nil => .nil
  | _ :: _, _, .cons first rest => .cons (Related.alike first) (Related.alike_all rest)
theorem Related.alike_entries : ∀ {es fs : List (Value × Value)},
    List.Forall₂ (EntryRelated (Closure.Alike L ρ)) es fs → List.Forall₂ (EntryAlike L ρ) es fs
  | [], _, .nil => .nil
  | (_, _) :: _, _, .cons (.mk key value) rest =>
    .cons (.mk (Related.alike key) (Related.alike value)) (Related.alike_entries rest)
end
/-- Values are alike if and only if they are related by the likeness of functions. -/
theorem alike_eq_related : Alike L ρ = Related (Closure.Alike L ρ) := by
  funext v w
  exact propext ⟨Alike.related, Related.alike⟩
theorem Alike.render_eq {v w : Value} (alike : v.Alike L ρ w) : v.render = w.render :=
  alike.related.render_eq fun _ _ alike => alike.render_eq

end Value
end KoreanScript
