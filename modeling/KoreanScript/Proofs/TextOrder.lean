import Mathlib
import KoreanScript.Operation
import KoreanScript.Proofs.Transcript

/-!
The order of texts. Texts are in the order of their scalar values, the first that differs
deciding, and in UTF-8 that is also the order of their bytes: where the scalar values of two
characters differ, the first bytes that differ do so in the same way.
-/
namespace KoreanScript

/-- The Unicode scalar values of a text. -/
def scalars (s : String) : List Nat := s.toList.map Char.toNat

variable {s t u : String}

theorem lt_or_eq_or_gt (s t : String) : s < t ∨ s = t ∨ t < s :=
  (lt_trichotomy s.toList t.toList).imp_right fun rest => rest.imp_left String.toList_inj.mp
/-- A reading of texts as lists that keeps their order is in no other order. -/
theorem lt_iff_of_keeps {α : Type} [LT α] [Std.Asymm fun a b : α => a < b] {f : String → List α}
    (keeps : ∀ {s t}, s < t → f s < f t) : f s < f t ↔ s < t := by
  refine ⟨fun less => ?_, keeps⟩
  rcases lt_or_eq_or_gt s t with before | rfl | behind
  · exact before
  · exact absurd less (List.lt_asymm less)
  · exact absurd less (List.lt_asymm (keeps behind))
theorem scalars_lt_iff : scalars s < scalars t ↔ s < t := lt_iff_of_keeps (List.map_lt fun _ _ less => less)

/-! ### UTF-8 -/

/-- How the scalar value of a character is spread over its bytes. -/
inductive Encoded : Nat → List UInt8 → Prop
  | one {v : Nat} : v ≤ 0x7F → Encoded v [.ofNat v]
  | two {v : Nat} : 0x7F < v → v ≤ 0x7FF → Encoded v [.ofNat (v / 64 % 32 + 192), .ofNat (v % 64 + 128)]
  | three {v : Nat} : 0x7FF < v → v ≤ 0xFFFF →
    Encoded v [.ofNat (v / 4096 % 16 + 224), .ofNat (v / 64 % 64 + 128), .ofNat (v % 64 + 128)]
  | four {v : Nat} : 0xFFFF < v → v < 0x110000 →
    Encoded v [.ofNat (v / 262144 % 8 + 240), .ofNat (v / 4096 % 64 + 128), .ofNat (v / 64 % 64 + 128),
      .ofNat (v % 64 + 128)]

theorem encoded (c : Char) : Encoded c.toNat (String.utf8EncodeChar c) := by
  have top : c.toNat < 0x110000 := by
    have valid : c.toNat < 0xD800 ∨ 0xDFFF < c.toNat ∧ c.toNat < 0x110000 := c.valid
    omega
  rw [String.utf8EncodeChar]
  change Encoded c.toNat
    (if c.toNat ≤ 0x7F then _ else if c.toNat ≤ 0x7FF then _ else if c.toNat ≤ 0xFFFF then _ else _)
  by_cases one : c.toNat ≤ 0x7F
  · rw [if_pos one]
    exact .one one
  by_cases two : c.toNat ≤ 0x7FF
  · rw [if_neg one, if_pos two]
    exact .two (Nat.lt_of_not_le one) two
  by_cases three : c.toNat ≤ 0xFFFF
  · rw [if_neg one, if_neg two, if_pos three]
    exact .three (Nat.lt_of_not_le two) three
  · rw [if_neg one, if_neg two, if_neg three]
    exact .four (Nat.lt_of_not_le three) top
theorem ofNat_cons_lt {a b : Nat} (small : a < 256) (small' : b < 256) {xs ys : List UInt8}
    (less : a < b ∨ a = b ∧ xs < ys) : UInt8.ofNat a :: xs < UInt8.ofNat b :: ys := by
  rw [List.cons_lt_cons_iff, UInt8.ofNat_lt_iff_lt small small']
  exact less.imp_right fun ⟨same, less⟩ => ⟨congrArg _ same, less⟩
/-- The bytes of a character decide, whatever stands behind them. -/
theorem Encoded.append_lt {v w : Nat} {as bs : List UInt8} (first : Encoded v as) (second : Encoded w bs)
    (less : v < w) (xs ys : List UInt8) : as ++ xs < bs ++ ys := by
  cases first <;> cases second
  case two.two =>
    refine ofNat_cons_lt (by omega) (by omega) ?_
    by_cases same : v / 64 % 32 + 192 = w / 64 % 32 + 192
    · exact .inr ⟨same, ofNat_cons_lt (by omega) (by omega) (.inl (by omega))⟩
    · exact .inl (by omega)
  case three.three =>
    refine ofNat_cons_lt (by omega) (by omega) ?_
    by_cases same : v / 4096 % 16 + 224 = w / 4096 % 16 + 224
    · refine .inr ⟨same, ofNat_cons_lt (by omega) (by omega) ?_⟩
      by_cases same' : v / 64 % 64 + 128 = w / 64 % 64 + 128
      · exact .inr ⟨same', ofNat_cons_lt (by omega) (by omega) (.inl (by omega))⟩
      · exact .inl (by omega)
    · exact .inl (by omega)
  case four.four =>
    refine ofNat_cons_lt (by omega) (by omega) ?_
    by_cases same : v / 262144 % 8 + 240 = w / 262144 % 8 + 240
    · refine .inr ⟨same, ofNat_cons_lt (by omega) (by omega) ?_⟩
      by_cases same' : v / 4096 % 64 + 128 = w / 4096 % 64 + 128
      · refine .inr ⟨same', ofNat_cons_lt (by omega) (by omega) ?_⟩
        by_cases same'' : v / 64 % 64 + 128 = w / 64 % 64 + 128
        · exact .inr ⟨same'', ofNat_cons_lt (by omega) (by omega) (.inl (by omega))⟩
        · exact .inl (by omega)
      · exact .inl (by omega)
    · exact .inl (by omega)
  -- Between different numbers of bytes the first byte decides.
  all_goals exact ofNat_cons_lt (by omega) (by omega) (.inl (by omega))
theorem flatMap_utf8EncodeChar_lt {cs ds : List Char} (less : cs < ds) :
    cs.flatMap String.utf8EncodeChar < ds.flatMap String.utf8EncodeChar := by
  induction less with
  | @nil d ds =>
    have bytes := encoded d
    rw [List.flatMap_cons]
    generalize String.utf8EncodeChar d = bs at bytes
    cases bytes <;> exact List.nil_lt_cons _ _
  | @cons c cs ds less ih =>
    rw [List.flatMap_cons, List.flatMap_cons]
    exact List.append_left_lt ih
  | @rel c cs d ds less =>
    rw [List.flatMap_cons, List.flatMap_cons]
    exact (encoded c).append_lt (encoded d) less _ _
theorem utf8_eq (s : String) : utf8 s = s.toList.flatMap String.utf8EncodeChar := by
  rw [utf8, String.toUTF8_eq_toByteArray, ← String.utf8Encode_toList, List.utf8Encode, List.data_toByteArray]
/-- The order of the bytes of two texts is that of the texts. -/
theorem utf8_lt_iff : utf8 s < utf8 t ↔ s < t := by
  refine lt_iff_of_keeps fun {s t} less => ?_
  rw [utf8_eq, utf8_eq]
  exact flatMap_utf8EncodeChar_lt less

/-! ### Comparing texts -/

theorem orderStrings_of_lt (less : s < t) : orderStrings s t = .lt := if_pos less
theorem orderStrings_self (s : String) : orderStrings s s = .eq := by
  rw [orderStrings, if_neg (String.lt_irrefl s), if_pos rfl]
theorem orderStrings_of_gt (more : t < s) : orderStrings s t = .gt := by
  have other : s ≠ t := fun same => String.lt_irrefl t (same ▸ more)
  rw [orderStrings, if_neg (String.lt_asymm more), if_neg other]
theorem orderStrings_eq_lt : orderStrings s t = .lt ↔ s < t := by
  rcases lt_or_eq_or_gt s t with less | rfl | more
  · simp [orderStrings_of_lt less, less]
  · simp [orderStrings_self]
  · simp [orderStrings_of_gt more, String.lt_asymm more]
/-- Two texts are equal exactly if they compare so. -/
theorem beq_eq_orderStrings (s t : String) : (s == t) = (orderStrings s t == .eq) := by
  rcases lt_or_eq_or_gt s t with less | rfl | more
  · have other : s ≠ t := fun same => String.lt_irrefl t (same ▸ less)
    rw [orderStrings_of_lt less, beq_false_of_ne other]
    rfl
  · rw [orderStrings_self, beq_self_eq_true]
    rfl
  · have other : s ≠ t := fun same => String.lt_irrefl t (same ▸ more)
    rw [orderStrings_of_gt more, beq_false_of_ne other]
    rfl
theorem orderStrings_swap (s t : String) : orderStrings t s = (orderStrings s t).swap := by
  rcases lt_or_eq_or_gt s t with less | rfl | more
  · rw [orderStrings_of_lt less, orderStrings_of_gt less]
    rfl
  · rw [orderStrings_self]
    rfl
  · rw [orderStrings_of_lt more, orderStrings_of_gt more]
    rfl
theorem orderStrings_trans (first : orderStrings s t = .lt) (rest : orderStrings t u = .lt) : orderStrings s u = .lt :=
  orderStrings_eq_lt.mpr (String.lt_trans (orderStrings_eq_lt.mp first) (orderStrings_eq_lt.mp rest))

end KoreanScript
