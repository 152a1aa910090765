import Mathlib
import KoreanScript.Evaluation
import KoreanScript.Proofs.WholeNumbers

/-!
Positions in lists. A value stands for a position if it is a number that is a natural one.
The builtins on lists succeed on the positions that a list has, for putting an element in
also on the one behind its last, and refuse every other value, where the call stands. What
they give is the list as it was but for that position, so putting an element in and taking
it out undo each other. None of them reads or writes a place that is not there.
-/
namespace KoreanScript

/-- Whether a value stands for the position `n`. -/
def Value.IsPosition (v : Value) (n : Nat) : Prop := ∃ x, v = .number x ∧ Number.value? x = some (n : ℚ)

/-- Infinities and the undefined number are no positions. -/
theorem Value.not_isPosition_of_not_isFinite {x : Float} (infinite : ¬ x.isFinite) (n : Nat) :
    ¬ (Value.number x).IsPosition n := by
  rintro ⟨_, ⟨rfl⟩, value⟩
  rw [Number.value?] at value
  change ¬ (Number.parts x).isFinite = true at infinite
  cases same : Number.parts x with
  | notANumber | infinity _ =>
    rw [same] at value
    cases value
  | zero _ | finite _ _ _ _ =>
    rw [same] at infinite
    exact infinite rfl

namespace Builtin
variable {b : Builtin} {bound n : Nat} {i v : Value} {l vs ws : List Value}

/-- Why a value is refused that stands for no position below `bound`. -/
def misplaced (bound : Nat) : Value → Refusal
  | .number x => .index x bound
  | v => .indexKind v.kind

theorem title_misplaced (b : Builtin) (bound : Nat) (v : Value) :
    (EvalError.Cause.builtin b (misplaced bound v)).title = "bad builtin argument" := by
  cases v <;> rfl

/-! ### The index that a value stands for -/

theorem index_of_isPosition (position : i.IsPosition n) (less : n < bound) : index bound i = .ok ⟨n, less⟩ := by
  obtain ⟨x, rfl, value⟩ := position
  have natural := (Number.natural?_eq_some_iff x n).mpr value
  simp only [index, natural, dif_pos less]
theorem index_of_not_isPosition (none : ∀ n < bound, ¬ i.IsPosition n) :
    index bound i = .error (misplaced bound i) := by
  cases i with
  | number x =>
    rw [index]
    cases natural : Number.natural? x with
    | none => rfl
    | some n =>
      have position : (Value.number x).IsPosition n := ⟨x, rfl, (Number.natural?_eq_some_iff x n).mp natural⟩
      have behind : ¬ n < bound := fun less => none n less position
      simp only [dif_neg behind]
      rfl
  | _ => rfl

/-! ### Calls -/

/-- Whether every call of `b` whose arguments have the values `vs` ends so, after what its arguments do. -/
def Ends (b : Builtin) (vs : List Value) (ending : Span → Store → Outcome Value) : Prop :=
  ∀ call f c es span s t, c.builtin? = some b → Expr.evalAll call f es s = .done vs t →
    Expr.eval call f (.call c es span) s = ending span t
def Gives (b : Builtin) (vs : List Value) (v : Value) : Prop := b.Ends vs fun _ t => .done v t
/-- Whether the arguments are refused, with an error at the range of the call. -/
def Rejects (b : Builtin) (vs : List Value) (r : Refusal) : Prop :=
  b.Ends vs fun span t => .failed ⟨.builtin b r, span⟩ t

/-- A call that writes nothing does what the builtin answers. -/
theorem ends_answer (silent : b.line? vs = none) : b.Ends vs fun span t =>
    match b.answer vs with
    | .ok v => .done v t
    | .error r => .failed ⟨.builtin b r, span⟩ t := by
  intro call f c es span s t named arguments
  simp only [Expr.eval, named]
  rw [Eval.bind_apply, arguments]
  simp only [Builtin.apply, silent]
  cases b.answer vs <;> rfl

/-- Whether a call of `b` with one argument left open succeeds exactly on the positions below
    `bound`, with the given results, and refuses every other value as a bad argument. -/
structure TakesPosition (b : Builtin) (bound : Nat) (arguments : Value → List Value) (result : Fin bound → Value) :
    Prop where
  gives (i : Value) (n : Fin bound) : i.IsPosition n → b.Gives (arguments i) (result n)
  rejects (i : Value) : (∀ n < bound, ¬ i.IsPosition n) → b.Rejects (arguments i) (misplaced bound i)
  title (i : Value) : (EvalError.Cause.builtin b (misplaced bound i)).title = "bad builtin argument"

theorem takesPosition {arguments : Value → List Value} {result : Fin bound → Value}
    (silent : ∀ i, b.line? (arguments i) = none)
    (answer : ∀ i, b.answer (arguments i) = (do
      let n ← index bound i
      .ok (result n))) : b.TakesPosition bound arguments result := by
  refine ⟨fun i n position => ?_, fun i none => ?_, title_misplaced b bound⟩
  · have ends := ends_answer (silent i)
    rwa [answer, index_of_isPosition position n.isLt] at ends
  · have ends := ends_answer (silent i)
    rwa [answer, index_of_not_isPosition none] at ends

/-- With `v` put in at `n`, a list has what stood before `n`, then `v`, then the rest. -/
theorem insertIdx_eq (v : Value) : n ≤ l.length → l.insertIdx n v = l.take n ++ v :: l.drop n := by
  induction l generalizing n with
  | nil =>
    intro within
    obtain rfl := Nat.le_zero.mp within
    rfl
  | cons w l ih =>
    intro within
    cases n with
    | zero => rfl
    | succ n =>
      rw [List.insertIdx_succ_cons, ih (Nat.le_of_succ_le_succ within), List.take_succ_cons, List.drop_succ_cons,
        List.cons_append]

theorem find_takesPosition (l : List Value) : find.TakesPosition l.length (fun i => [.list l, i]) l.get :=
  takesPosition (fun _ => rfl) fun i => answer_findAt l i
theorem remove_takesPosition (l : List Value) : remove.TakesPosition l.length (fun i => [.list l, i])
    fun n => .list (l.take n ++ l.drop (n + 1)) := by
  refine takesPosition (fun _ => rfl) fun i => ?_
  rw [answer_removeAt]
  simp only [List.eraseIdx_eq_take_drop_succ]
theorem insert_takesPosition (l : List Value) (v : Value) :
    insert.TakesPosition (l.length + 1) (fun i => [.list l, i, v]) fun n => .list (l.take n ++ v :: l.drop n) := by
  refine takesPosition (fun _ => rfl) fun i => ?_
  rw [answer_insertAt]
  cases index (l.length + 1) i with
  | error r => rfl
  | ok n => exact congrArg (fun ws => Except.ok (Value.list ws)) (insertIdx_eq v (Nat.le_of_lt_succ n.isLt))

/-! ### Putting in and taking out -/

theorem find_gives (position : i.IsPosition n) (here : l[n]? = some v) : find.Gives [.list l, i] v := by
  obtain ⟨less, rfl⟩ := List.getElem?_eq_some_iff.mp here
  exact (find_takesPosition l).gives i ⟨n, less⟩ position
theorem remove_gives (position : i.IsPosition n) (less : n < l.length) :
    remove.Gives [.list l, i] (.list (l.eraseIdx n)) := by
  rw [List.eraseIdx_eq_take_drop_succ]
  exact (remove_takesPosition l).gives i ⟨n, less⟩ position
theorem insert_gives (position : i.IsPosition n) (within : n ≤ l.length) (v : Value) :
    insert.Gives [.list l, i, v] (.list (l.insertIdx n v)) := by
  rw [insertIdx_eq v within]
  exact (insert_takesPosition l v).gives i ⟨n, Nat.lt_succ_of_le within⟩ position

/-- What the builtins say of a list `l` and of the list `ws` that has `v` put in at the position `n`,
    which `i` stands for. -/
structure PutIn (l : List Value) (i : Value) (n : Nat) (v : Value) (ws : List Value) : Prop where
  inserted : insert.Gives [.list l, i, v] (.list ws)
  found : find.Gives [.list ws, i] v
  removed : remove.Gives [.list ws, i] (.list l)
  before (j w : Value) (m : Nat) : j.IsPosition m → m < n → l[m]? = some w → find.Gives [.list ws, j] w
  behind (j w : Value) (m : Nat) : j.IsPosition m → n < m → l[m - 1]? = some w → find.Gives [.list ws, j] w

theorem putIn_insertIdx (position : i.IsPosition n) (within : n ≤ l.length) (v : Value) :
    PutIn l i n v (l.insertIdx n v) := by
  refine ⟨insert_gives position within v, find_gives position ?_, ?_,
    fun j w m place before here => find_gives place ?_, fun j w m place behind here => find_gives place ?_⟩
  · rw [List.getElem?_insertIdx, if_neg (Nat.lt_irrefl n), if_pos rfl, if_pos within]
  · have less : n < (l.insertIdx n v).length := by
      rw [List.length_insertIdx, if_pos within]
      omega
    have taken := remove_gives position less
    rwa [List.eraseIdx_insertIdx_self] at taken
  · rw [List.getElem?_insertIdx, if_pos before, here]
  · rw [List.getElem?_insertIdx, if_neg (by omega), if_neg (by omega), here]
/-- What is taken out of a list and put in again at its position. -/
theorem insert_remove_gives (position : i.IsPosition n) (less : n < l.length) :
    ∃ ws w, remove.Gives [.list l, i] (.list ws) ∧ find.Gives [.list l, i] w ∧
      insert.Gives [.list ws, i, w] (.list l) := by
  have within : n ≤ (l.eraseIdx n).length := by
    rw [List.length_eraseIdx_of_lt less]
    omega
  have back := insert_gives position within l[n]
  rw [List.insertIdx_eraseIdx_getElem less] at back
  exact ⟨_, l[n], remove_gives position less, find_gives position (List.getElem?_eq_getElem less), back⟩

/-! ### Places that are there -/

/-- The bare number of the index below `bound` that a value stands for. -/
def place (bound : Nat) : Value → Except Refusal Nat
  | .number x =>
    match Number.natural? x with
    | some n => if n < bound then .ok n else .error (.index x bound)
    | none => .error (.index x bound)
  | v => .error (.indexKind v.kind)
/-- Goes on at a place if it is not refused; none if what is done there finds no such place. -/
def atPlace? (p : Except Refusal Nat) (access : Nat → Option Value) : Option (Except Refusal Value) :=
  match p with
  | .ok n => (access n).map .ok
  | .error r => some (.error r)
/-- The value of a builtin that reads its arguments and the elements of lists by bare numbers, and
    goes wrong where a list has no such place. -/
def answerAt? (b : Builtin) (vs : List Value) : Option (Except Refusal Value) :=
  if b = write then some (.ok .empty)
  else if vs.length ∉ b.counts then some (.error (.count vs.length b.counts))
  else do
    let first ← vs[0]?
    match b, first, vs.length with
    | insert, .list ws, 3 => do
      let i ← vs[1]?
      let v ← vs[2]?
      atPlace? (place (ws.length + 1) i) fun n => if n ≤ ws.length then some (.list (ws.insertIdx n v)) else none
    | remove, .list ws, _ => do
      let i ← vs[1]?
      atPlace? (place ws.length i) fun n => if n < ws.length then some (.list (ws.eraseIdx n)) else none
    | find, .list ws, _ => do
      let i ← vs[1]?
      atPlace? (place ws.length i) fun n => ws[n]?
    | _, _, _ => some (b.answer vs)

theorem place_eq (bound : Nat) (v : Value) : place bound v = (index bound v).map Fin.val := by
  cases v with
  | number x =>
    rw [place, index]
    cases Number.natural? x with
    | none => rfl
    | some n =>
      by_cases less : n < bound
      · simp only [if_pos less, dif_pos less]
        rfl
      · simp only [if_neg less, dif_neg less]
        rfl
  | _ => rfl
/-- What is done at every place below the bound finds the places of the index. -/
theorem atPlace?_place {access : Nat → Option Value} {result : Fin bound → Value}
    (there : ∀ n : Fin bound, access n = some (result n)) (i : Value) :
    atPlace? (place bound i) access = some (do
      let n ← index bound i
      .ok (result n)) := by
  rw [place_eq]
  cases index bound i with
  | error r => rfl
  | ok n =>
    show (access n).map Except.ok = _
    rw [there n]
    rfl
theorem answer_of_count (other : b ≠ write) (never : vs.length ∉ b.counts) :
    b.answer vs = .error (.count vs.length b.counts) := by
  unfold answer
  split
  all_goals first | rfl | exact absurd rfl other | exact absurd (by simp [counts]) never
/-- No count and no value of arguments makes a builtin go wrong. -/
theorem answerAt?_eq (b : Builtin) (vs : List Value) : b.answerAt? vs = some (b.answer vs) := by
  rw [answerAt?]
  by_cases writes : b = write
  · rw [if_pos writes, writes]
    rfl
  by_cases never : vs.length ∉ b.counts
  · rw [if_neg writes, if_pos never, answer_of_count writes never]
  rw [if_neg writes, if_neg never]
  have count : vs.length ∈ b.counts := not_not.mp never
  cases b with
  | write => exact absurd rfl writes
  | length =>
    obtain ⟨v, rfl⟩ := List.length_eq_one_iff.mp (List.mem_singleton.mp count)
    cases v <;> rfl
  | insert =>
    rcases List.mem_pair.mp count with two | three
    · obtain ⟨v, w, rfl⟩ := List.length_eq_two.mp two
      cases v <;> rfl
    · obtain ⟨v, i, w, rfl⟩ := List.length_eq_three.mp three
      cases v with
      | list l => exact atPlace?_place (fun n => if_pos (Nat.le_of_lt_succ n.isLt)) i
      | _ => rfl
  | remove =>
    obtain ⟨v, i, rfl⟩ := List.length_eq_two.mp (List.mem_singleton.mp count)
    cases v with
    | list l => exact atPlace?_place (fun n => if_pos n.isLt) i
    | _ => rfl
  | find =>
    obtain ⟨v, i, rfl⟩ := List.length_eq_two.mp (List.mem_singleton.mp count)
    cases v with
    | list l => exact atPlace?_place (fun n => List.getElem?_eq_getElem n.isLt) i
    | _ => rfl

/-! ### The main result -/

/-- What the builtins do at the positions of a list. -/
structure EditsLists (l : List Value) : Prop where
  finds : find.TakesPosition l.length (fun i => [.list l, i]) l.get
  removes : remove.TakesPosition l.length (fun i => [.list l, i]) fun n => .list (l.take n ++ l.drop (n + 1))
  inserts (v : Value) :
    insert.TakesPosition (l.length + 1) (fun i => [.list l, i, v]) fun n => .list (l.take n ++ v :: l.drop n)
  /-- What is put in is found and taken out again, and the other elements are still there. -/
  putIn (i v : Value) (n : Nat) : i.IsPosition n → n ≤ l.length → ∃ ws, PutIn l i n v ws
  /-- What is taken out and put in again where it was gives the list back. -/
  takenOut (i : Value) (n : Nat) : i.IsPosition n → n < l.length →
    ∃ ws w, remove.Gives [.list l, i] (.list ws) ∧ find.Gives [.list l, i] w ∧ insert.Gives [.list ws, i, w] (.list l)

/-- On every list the builtins succeed exactly on positions of the list, for putting an element in
    also on the one behind the last, and refuse every other value where the call stands; both zeros
    are the first position, and infinities and the undefined number are none. No count and no value
    of arguments makes any builtin read or write a place that is not there. -/
theorem editsLists :
    (∀ l, EditsLists l) ∧
    (∀ x, x == 0.0 → (Value.number x).IsPosition 0) ∧
    (∀ x n, ¬ x.isFinite → ¬ (Value.number x).IsPosition n) ∧
    ∀ b vs, answerAt? b vs = some (answer b vs) := by
  refine ⟨fun l => ⟨find_takesPosition l, remove_takesPosition l, insert_takesPosition l, ?_, ?_⟩, fun x zero => ?_,
    fun x n infinite => Value.not_isPosition_of_not_isFinite infinite n, answerAt?_eq⟩
  · exact fun i v n position within => ⟨_, putIn_insertIdx position within v⟩
  · exact fun i n position less => insert_remove_gives position less
  · exact ⟨x, rfl, Number.value?_of_beq_zero zero⟩
/-- Negative zero finds the only element of a list, and nothing in the empty list. -/
theorem editsLists_negative_zero :
    find.Gives [.list [.boolean true], .number (-0.0)] (.boolean true) ∧
      find.Rejects [.list [], .number (-0.0)] (.index (-0.0) 0) := by
  obtain ⟨edits, zero, -, -⟩ := editsLists
  have first : (Value.number (-0.0)).IsPosition 0 := zero (-0.0) (by decide +kernel)
  have found := (edits [.boolean true]).finds.gives (.number (-0.0)) ⟨0, Nat.one_pos⟩ first
  have refused := (edits []).finds.rejects (.number (-0.0)) fun n below => absurd below (Nat.not_lt_zero n)
  exact ⟨found, refused⟩

end Builtin
end KoreanScript
