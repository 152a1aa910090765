import KoreanScript.Proofs.Equality
import KoreanScript.Proofs.Soundness

/-!
Tables as maps that remember in which order their keys came. Whatever is written to a
table and taken out of it, in whatever order: a key has the value that was last written
for an equal key and not taken out since, and keys stand in the order in which they were
first written since they were last absent.
-/
namespace KoreanScript

namespace Entries

/-! ### Histories -/

/-- What may be done to entries. -/
inductive Edit (κ υ : Type) where
  | insert (k : κ) (v : υ)
  | remove (k : κ)

variable {κ υ : Type}

def Edit.key : Edit κ υ → κ
  | insert k _ | remove k => k

variable [BEq κ]

def Edit.apply (es : List (κ × υ)) : Edit κ υ → List (κ × υ)
  | insert k v => Entries.insert k v es
  | remove k => (Entries.remove k es).2
/-- The entries that some edits make of none. -/
def ofEdits (edits : List (Edit κ υ)) : List (κ × υ) := edits.foldl Edit.apply []
/-- Whether the last edit of a key equal to `k` gives it the value `v`. -/
def Holds (edits : List (Edit κ υ)) (k : κ) (v : υ) : Prop :=
  ∃ before l later, edits = before ++ .insert l v :: later ∧ l == k ∧ ∀ e ∈ later, (e.key == k) = false
/-- Whether the edit with the number `i` is the first to insert a key equal to `k` since the last
    time that there was none, and inserts `k` itself. -/
structure Born (edits : List (Edit κ υ)) (i : Nat) (k : κ) : Prop where
  inserts : ∃ v, edits[i]? = some (.insert k v)
  absent (v : υ) : ¬ Holds (edits.take i) k v
  kept (l : κ) : .remove l ∈ edits.drop (i + 1) → (l == k) = false

/-- Whether entries are the map that some edits make of the empty one. -/
structure Reflects (edits : List (Edit κ υ)) (es : List (κ × υ)) : Prop where
  /-- No two keys are equal. -/
  apart : (es.map Prod.fst).Pairwise fun k l => (k == l) = false
  /-- A key has the value of the last insertion of an equal key, if none is removed behind it, and
      else it has none. -/
  get?_iff (k : κ) (v : υ) : get? k es = some v ↔ Holds edits k v
  /-- A removal answers what look-up would. -/
  removed (k : κ) : (remove k es).1 = get? k es
  get?_removed (k : κ) : get? k (remove k es).2 = none
  get?_others (k l : κ) : (k == l) = false → get? l (remove k es).2 = get? l es
  /-- A removal takes one key out and leaves the others in their order. -/
  others (k : κ) : (remove k es).2 = es.filter fun e => !(e.1 == k)
  /-- Keys stand in the order of the insertions that brought them. -/
  order : ∃ births : List Nat, births.Pairwise (· < ·) ∧ List.Forall₂ (Born edits) births (es.map Prod.fst)
  /-- There are as many entries as keys that have a value, equal keys counted once. -/
  size : es.length = {ks : Set κ | ∃ k v, Holds edits k v ∧ ks = {l | l == k}}.ncard

theorem ofEdits_concat (edits : List (Edit κ υ)) (e : Edit κ υ) : ofEdits (edits ++ [e]) = e.apply (ofEdits edits) := by
  simp [ofEdits]
/-- The last edit alone decides over its key, and leaves all others to the edits before it. -/
theorem holds_concat {edits : List (Edit κ υ)} {e : Edit κ υ} {k : κ} {v : υ} :
    Holds (edits ++ [e]) k v ↔ (∃ l, e = .insert l v ∧ l == k) ∨ ((e.key == k) = false ∧ Holds edits k v) := by
  constructor
  · rintro ⟨before, l, later, split, same, none⟩
    rcases later.eq_nil_or_concat with rfl | ⟨later, last, rfl⟩
    · obtain ⟨-, last⟩ := List.append_inj' split rfl
      exact .inl ⟨l, List.singleton_inj.mp last, same⟩
    · rw [List.concat_eq_append, ← List.cons_append, ← List.append_assoc] at split
      obtain ⟨rfl, last⟩ := List.append_inj' split rfl
      cases last
      exact .inr ⟨none e (by simp), before, l, later, rfl, same, fun d inside => none d (by simp [inside])⟩
  · rintro (⟨l, rfl, same⟩ | ⟨other, before, l, later, rfl, same, none⟩)
    · exact ⟨edits, l, [], rfl, same, by simp⟩
    · refine ⟨before, l, later ++ [e], by simp, same, fun d inside => ?_⟩
      rcases List.mem_append.mp inside with inside | last
      · exact none d inside
      · rwa [List.mem_singleton.mp last]

/-! ### Keys -/

theorem exists_get?_iff {k : κ} {es : List (κ × υ)} : (∃ v, get? k es = some v) ↔ ∃ e ∈ es, e.1 == k := by
  rw [← Option.isSome_iff_exists, get?, Option.isSome_map, List.find?_isSome]
/-- The keys of what edits make are pairwise apart. -/
theorem apart_ofEdits (edits : List (Edit κ υ)) :
    ((ofEdits edits).map Prod.fst).Pairwise fun k l => (k == l) = false := by
  induction edits using List.reverseRecOn with
  | nil => exact .nil
  | append_singleton edits e ih =>
    rw [ofEdits_concat]
    cases e with
    | insert k v => exact apart_insert ih k v
    | remove k =>
      rw [Edit.apply, remove_eq]
      exact ih.sublist (keys_erase k _)

theorem Born.lt {edits : List (Edit κ υ)} {i : Nat} {k : κ} (born : Born edits i k) : i < edits.length := by
  obtain ⟨v, here⟩ := born.inserts
  exact (List.getElem?_eq_some_iff.mp here).1
/-- A key stays until one equal to it is removed. -/
theorem Born.concat {edits : List (Edit κ υ)} {i : Nat} {k : κ} (born : Born edits i k) {e : Edit κ υ}
    (keeps : ∀ l, e = .remove l → (l == k) = false) : Born (edits ++ [e]) i k := by
  refine ⟨?_, ?_, ?_⟩
  · obtain ⟨v, here⟩ := born.inserts
    exact ⟨v, by rw [List.getElem?_append_left born.lt, here]⟩
  · rw [List.take_append_of_le_length (Nat.le_of_lt born.lt)]
    exact born.absent
  · intro l later
    rw [List.drop_append_of_le_length born.lt] at later
    rcases List.mem_append.mp later with later | last
    · exact born.kept l later
    · exact keeps l (List.mem_singleton.mp last).symm
/-- What an edit brings is born with it. -/
theorem Born.last {edits : List (Edit κ υ)} {k : κ} (absent : ∀ v, ¬ Holds edits k v) (v : υ) :
    Born (edits ++ [.insert k v]) edits.length k := by
  refine ⟨⟨v, by simp⟩, ?_, by simp⟩
  rw [List.take_left]
  exact absent
theorem forall₂_filter {α β : Type} {R : α → β → Prop} {as : List α} {bs : List β} (related : List.Forall₂ R as bs)
    (p : β → Bool) : ∃ cs, cs.Sublist as ∧ List.Forall₂ (fun a b => R a b ∧ p b) cs (bs.filter p) := by
  induction related with
  | nil => exact ⟨[], .slnil, .nil⟩
  | @cons a b as bs first _ ih =>
    obtain ⟨cs, fewer, rest⟩ := ih
    by_cases stays : p b
    · rw [List.filter_cons_of_pos stays]
      exact ⟨a :: cs, fewer.cons_cons a, .cons ⟨first, stays⟩ rest⟩
    · rw [List.filter_cons_of_neg stays]
      exact ⟨cs, fewer.cons a, rest⟩

/-! ### Looking up -/

variable [PartialEquivBEq κ]

theorem erase_eq_filter {es : List (κ × υ)} (apart : (es.map Prod.fst).Pairwise fun k l => (k == l) = false) (k : κ) :
    erase k es = es.filter fun e => !(e.1 == k) := by
  induction es with
  | nil => rfl
  | cons e es ih =>
    rw [List.map_cons, List.pairwise_cons] at apart
    by_cases same : e.1 == k
    · -- No other key is equal to `k`, or it would be equal to this one.
      have rest : ∀ d ∈ es, (!(d.1 == k)) = true := by
        intro d inside
        rw [Bool.not_eq_true', ← apart.1 d.1 (List.mem_map_of_mem inside)]
        exact BEq.comm.trans (BEq.congr_left (BEq.symm same))
      rw [erase, List.eraseP_cons, same, cond_true, List.filter_cons_of_neg (by simp [same]),
        List.filter_eq_self.mpr rest]
    · rw [erase, List.eraseP_cons, Bool.eq_false_iff.mpr same, cond_false, List.filter_cons_of_pos (by simp [same]),
        ← ih apart.2, erase]
theorem get?_filter (k l : κ) (es : List (κ × υ)) :
    get? l (es.filter fun e => !(e.1 == k)) = if k == l then none else get? l es := by
  induction es with
  | nil => simp [get?_nil]
  | cons e es ih =>
    rw [List.filter_cons, get?_cons]
    by_cases out : e.1 == k
    · have both : (e.1 == l) = (k == l) := BEq.congr_left out
      rw [if_neg (by simp [out]), ih, both]
      split <;> rfl
    · rw [if_pos (by simp [out]), get?_cons, ih]
      by_cases here : e.1 == l
      · have other : ¬ k == l := fun same => out (BEq.trans here (BEq.symm same))
        rw [if_pos here, if_pos here, if_neg other]
      · rw [if_neg here, if_neg here]
/-- What edits leave a key with is what look-up finds. -/
theorem get?_ofEdits_iff (edits : List (Edit κ υ)) (k : κ) (v : υ) :
    get? k (ofEdits edits) = some v ↔ Holds edits k v := by
  induction edits using List.reverseRecOn with
  | nil => simp [ofEdits, get?_nil, Holds]
  | append_singleton edits e ih =>
    rw [ofEdits_concat, holds_concat]
    cases e with
    | insert l w =>
      rw [Edit.apply, get?_insert]
      by_cases same : l == k
      · simp [same, Edit.key]
      · simp [same, Edit.key, ih]
    | remove l =>
      rw [Edit.apply, remove_eq, erase_eq_filter (apart_ofEdits edits), get?_filter]
      by_cases same : l == k
      · simp [same, Edit.key]
      · simp [same, Edit.key, ih]

/-! ### The order of the keys -/

theorem births_ofEdits (edits : List (Edit κ υ)) : ∃ births : List Nat, (∀ i ∈ births, i < edits.length) ∧
    births.Pairwise (· < ·) ∧ List.Forall₂ (Born edits) births ((ofEdits edits).map Prod.fst) := by
  induction edits using List.reverseRecOn with
  | nil => exact ⟨[], by simp, .nil, .nil⟩
  | append_singleton edits e ih =>
    obtain ⟨births, past, ordered, born⟩ := ih
    have past' : ∀ i ∈ births, i < (edits ++ [e]).length := fun i member =>
      Nat.lt_of_lt_of_le (past i member) (by simp)
    rw [ofEdits_concat]
    cases e with
    | insert k v =>
      have earlier : List.Forall₂ (Born (edits ++ [.insert k v])) births ((ofEdits edits).map Prod.fst) :=
        born.imp fun i l born => born.concat fun m same => by cases same
      rw [Edit.apply, keys_insert]
      split
      · exact ⟨births, past', ordered, earlier⟩
      · next absent =>
        have new : ∀ w, ¬ Holds edits k w := by
          intro w holds
          exact absent (List.any_eq_true.mpr (exists_get?_iff.mp ⟨w, (get?_ofEdits_iff edits k w).mpr holds⟩))
        refine ⟨births ++ [edits.length], ?_, ?_, List.rel_append earlier (.cons (Born.last new v) .nil)⟩
        · simpa [or_imp, forall_and] using past'
        · refine List.pairwise_append.mpr ⟨ordered, List.pairwise_singleton _ _, fun i member j last => ?_⟩
          rw [List.mem_singleton.mp last]
          exact past i member
    | remove k =>
      rw [Edit.apply, remove_eq, erase_eq_filter (apart_ofEdits edits)]
      obtain ⟨cs, fewer, kept⟩ := forall₂_filter born fun l => !(l == k)
      refine ⟨cs, fun i member => past' i (fewer.subset member), ordered.sublist fewer, ?_⟩
      rw [List.filter_map] at kept
      refine kept.imp fun i l both => both.1.concat fun m same => ?_
      cases same
      rw [BEq.comm]
      simpa using both.2

/-! ### The number of keys -/

omit [PartialEquivBEq κ] in
theorem defined_ofEdits {edits : List (Edit κ υ)} (defined : ∀ e ∈ edits, e.key == e.key) :
    ∀ k ∈ (ofEdits edits).map Prod.fst, k == k := by
  induction edits using List.reverseRecOn with
  | nil => simp [ofEdits]
  | append_singleton edits e ih =>
    have earlier := ih fun d inside => defined d (by simp [inside])
    rw [ofEdits_concat]
    cases e with
    | insert k v =>
      rw [Edit.apply, keys_insert]
      split
      · exact earlier
      · intro l member
        rcases List.mem_append.mp member with member | last
        · exact earlier l member
        · rw [List.mem_singleton.mp last]
          exact defined (.insert k v) (by simp)
    | remove k =>
      rw [Edit.apply, remove_eq]
      exact fun l member => earlier l ((keys_erase k _).subset member)
/-- Each key that has a value is equal to one that stands there, and no two of these are equal. -/
theorem size_ofEdits {edits : List (Edit κ υ)} (defined : ∀ e ∈ edits, e.key == e.key) :
    (ofEdits edits).length = {ks : Set κ | ∃ k v, Holds edits k v ∧ ks = {l | l == k}}.ncard := by
  classical
  let keys := (ofEdits edits).map Prod.fst
  let same (k : κ) : Set κ := {l | l == k}
  have self := defined_ofEdits defined
  have distinct : (keys.map same).Nodup := by
    refine List.pairwise_map.mpr ((apart_ofEdits edits).imp_of_mem fun {k l} member _ apart equal => ?_)
    have inside : k ∈ same l := equal ▸ self k member
    rw [show (k == l) = true from inside] at apart
    cases apart
  have classes : {ks : Set κ | ∃ k v, Holds edits k v ∧ ks = same k} = {ks | ks ∈ keys.map same} := by
    ext ks
    constructor
    · rintro ⟨k, v, holds, rfl⟩
      obtain ⟨e, entry, equal⟩ := exists_get?_iff.mp ⟨v, (get?_ofEdits_iff edits k v).mpr holds⟩
      refine List.mem_map.mpr ⟨e.1, List.mem_map_of_mem entry, ?_⟩
      ext l
      exact Bool.eq_iff_iff.mp (BEq.congr_right equal)
    · intro member
      obtain ⟨k, key, rfl⟩ := List.mem_map.mp member
      obtain ⟨e, entry, rfl⟩ := List.mem_map.mp key
      obtain ⟨v, here⟩ := exists_get?_iff.mpr ⟨e, entry, self e.1 key⟩
      exact ⟨e.1, v, (get?_ofEdits_iff edits e.1 v).mp here, rfl⟩
  rw [classes, ← List.coe_toFinset, Set.ncard_coe_finset, List.toFinset_card_of_nodup distinct, List.length_map,
    List.length_map]

end Entries

/-! ### The main result -/

/-- A table is a map that remembers in which order its keys came. Edits whose keys are equal to
    themselves make of the empty table what the map of these edits is, whatever kinds their keys have. -/
theorem Table.reflects_edits (edits : List (Entries.Edit Value Value)) (defined : ∀ e ∈ edits, e.key == e.key) :
    Entries.Reflects edits (Entries.ofEdits edits) := by
  have removed (k : Value) := Entries.remove_eq k (Entries.ofEdits edits)
  have others (k : Value) := Entries.erase_eq_filter (Entries.apart_ofEdits edits) k
  refine ⟨Entries.apart_ofEdits edits, Entries.get?_ofEdits_iff edits, fun k => ?_, fun k => ?_, fun k l other => ?_,
    fun k => ?_, ?_, Entries.size_ofEdits defined⟩
  · rw [removed]
  · rw [removed, others, Entries.get?_filter]
    split
    · rfl
    · next undefined =>
      -- What is not equal to itself is equal to no key.
      refine Option.eq_none_iff_forall_ne_some.mpr fun v found => undefined ?_
      obtain ⟨e, -, equal⟩ := Entries.exists_get?_iff.mp ⟨v, found⟩
      exact BEq.trans (BEq.symm equal) equal
  · rw [removed, others, Entries.get?_filter, if_neg (by simp [other])]
  · rw [removed, others]
  · obtain ⟨births, -, ordered, born⟩ := Entries.births_ofEdits edits
    exact ⟨births, ordered, born⟩

set_option maxRecDepth 100000 in
/-- A table to which the two zeros are written, and from which a key is taken out that comes again. -/
theorem Table.reflects_edits_zeros :
    let edits : List (Entries.Edit Value Value) :=
      [.insert (.number 0.0) (.string "x"), .insert (.string "a") .empty, .insert (.boolean true) .empty,
        .insert (.number (-0.0)) (.string "y"), .remove (.string "a"), .insert (.string "a") (.string "z")]
    (∀ e ∈ edits, e.key == e.key) ∧ Entries.Reflects edits
      [(.number 0.0, .string "y"), (.boolean true, .empty), (.string "a", .string "z")] := by
  intro edits
  have defined : ∀ e ∈ edits, e.key == e.key := by decide
  exact ⟨defined, Table.reflects_edits edits defined⟩

end KoreanScript
