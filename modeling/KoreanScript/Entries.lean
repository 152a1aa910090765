/-!
Lists of keys and values in which a key stands at most once: writing to a key
that is there keeps its place and the key first written.
-/
namespace KoreanScript.Entries

variable {κ υ : Type} [BEq κ]

/-- The value of a key. -/
def get? (k : κ) (es : List (κ × υ)) : Option υ := (es.find? (·.1 == k)).map Prod.snd
/-- Gives a key a value, behind all others if the key is new. -/
def insert (k : κ) (v : υ) : List (κ × υ) → List (κ × υ)
  | [] => [(k, v)]
  | e :: es => if e.1 == k then (e.1, v) :: es else e :: insert k v es
/-- Takes a key and its value out. -/
def erase (k : κ) (es : List (κ × υ)) : List (κ × υ) := es.eraseP (·.1 == k)
/-- Takes a key and its value out and answers the value, if the key is there. -/
def remove (k : κ) : List (κ × υ) → Option υ × List (κ × υ)
  | [] => (none, [])
  | e :: es =>
    if e.1 == k then (some e.2, es)
    else
      let (found, rest) := remove k es
      (found, e :: rest)

theorem get?_nil (k : κ) : get? k ([] : List (κ × υ)) = none := rfl
theorem get?_cons (k : κ) (e : κ × υ) (es : List (κ × υ)) :
    get? k (e :: es) = if e.1 == k then some e.2 else get? k es := by
  simp only [get?, List.find?_cons]
  split <;> simp_all
/-- What is found was written there. -/
theorem mem_of_get? {k : κ} {v : υ} {es : List (κ × υ)} (found : get? k es = some v) : ∃ l, (l, v) ∈ es := by
  rw [get?, Option.map_eq_some_iff] at found
  obtain ⟨e, here, rfl⟩ := found
  exact ⟨e.1, List.mem_of_find?_eq_some here⟩
/-- A written key has its new value, and every other key the value that it had. -/
theorem get?_insert [PartialEquivBEq κ] (k l : κ) (v : υ) (es : List (κ × υ)) :
    get? l (insert k v es) = if k == l then some v else get? l es := by
  induction es with
  | nil => simp [insert, get?_cons]
  | cons e es ih =>
    by_cases same : e.1 == k
    · rw [insert, if_pos same, get?_cons, get?_cons, BEq.congr_left same]
      split <;> rfl
    · rw [insert, if_neg same, get?_cons, get?_cons, ih]
      by_cases here : e.1 == l
      · have other : ¬ k == l := fun h => same (BEq.trans here (BEq.symm h))
        rw [if_pos here, if_pos here, if_neg other]
      · rw [if_neg here, if_neg here]
/-- What is taken out is what would be found. -/
theorem remove_eq (k : κ) (es : List (κ × υ)) : remove k es = (get? k es, erase k es) := by
  induction es with
  | nil => rfl
  | cons e es ih =>
    rw [remove, get?_cons, erase, List.eraseP_cons]
    by_cases same : e.1 == k
    · simp [same]
    · simp [same, ih, erase]

end KoreanScript.Entries
