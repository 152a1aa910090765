import Mathlib
import KoreanScript.Evaluation
import KoreanScript.Proofs.NumberOrder
import KoreanScript.Proofs.TextOrder

/-!
What operators between two operands do with values of all kinds. An operator succeeds on
values of one kind that it takes. On others it blames the left operand if nothing of its kind
could stand there, and else the right one. Comparisons are those of one order, of numbers
without the undefined one and of texts.
-/
namespace KoreanScript

/-- Whether a value is the undefined number. -/
def Value.IsUndefined (v : Value) : Prop := ∃ x, v = .number x ∧ x.isNaN

namespace InfixOperator
variable {op : InfixOperator} {l m r v : Value} {o p : Option Ordering}

/-- Whether every expression of `op` whose operands have the values `l` and `r` ends so, after what
    its operands do. -/
def Ends (op : InfixOperator) (l r : Value) (ending : Expr → Expr → Store → Outcome Value) : Prop :=
  ∀ call f a b span s t u, Expr.eval call f a s = .done l t → Expr.eval call f b t = .done r u →
    Expr.eval call f (.binary op a b span) s = ending a b u
def Gives (op : InfixOperator) (l r v : Value) : Prop := op.Ends l r fun _ _ u => .done v u
/-- Whether the error is on the kind and at the range of the left operand. -/
def BlamesLeft (op : InfixOperator) (l r : Value) : Prop :=
  op.Ends l r fun a _ u => .failed ⟨.operand l.kind op.accepts, a.span⟩ u
/-- Whether the error is on the kind and at the range of the right operand; the kind of the left one
    is wanted there. -/
def BlamesRight (op : InfixOperator) (l r : Value) : Prop :=
  op.Ends l r fun _ b u => .failed ⟨.operand r.kind [l.kind], b.span⟩ u
/-- Whether `op` has a value between `l` and `r`. -/
def Succeeds (op : InfixOperator) (l r : Value) : Prop := ∃ v, op.Gives l r v

/-! ### Expressions and their operands -/

theorem ends_apply (op : InfixOperator) (l r : Value) : op.Ends l r fun a b u =>
    match op.apply l r with
    | .ok v => .done v u
    | .error e => .failed ⟨.operand e.found e.accepted, match e.side with | .left => a.span | .right => b.span⟩ u := by
  intro call f a b span s t u left right
  rw [Expr.eval, Eval.bind_apply, left]
  simp only
  rw [Eval.bind_apply, right]
  simp only
  cases op.apply l r <;> rfl
/-- All values are those of some operands. -/
theorem exists_operands (l r : Value) :
    ∃ call f a b s, Expr.eval call f a s = .done l s ∧ Expr.eval call f b s = .done r s := by
  let here : Span := ⟨⟨0, 0⟩, ⟨0, 0⟩⟩
  let s : Store := ⟨#[⟨[("a", l), ("b", r)], none⟩], 0, #[]⟩
  refine ⟨fun _ _ => Eval.tooDeep, 0, .identifier ⟨"a", here⟩, .identifier ⟨"b", here⟩, s, ?_, ?_⟩
  · simp [Expr.eval, Eval.lookup, Store.lookup, Frame.lookup, s, Entries.get?_cons]
  · simp [Expr.eval, Eval.lookup, Store.lookup, Frame.lookup, s, Entries.get?_cons]
theorem gives_iff : op.Gives l r v ↔ op.apply l r = .ok v := by
  have ends := ends_apply op l r
  constructor
  · intro gives
    obtain ⟨call, f, a, b, s, left, right⟩ := exists_operands l r
    have given := (ends call f a b ⟨⟨0, 0⟩, ⟨0, 0⟩⟩ s s s left right).symm.trans (gives _ _ _ _ _ _ _ _ left right)
    cases applied : op.apply l r with
    | ok w =>
      rw [applied] at given
      cases given
      rfl
    | error e =>
      rw [applied] at given
      cases given
  · intro applied
    rwa [applied] at ends
theorem gives_unique {w : Value} (gives : op.Gives l r v) (gives' : op.Gives l r w) : v = w :=
  Except.ok.inj ((gives_iff.mp gives).symm.trans (gives_iff.mp gives'))
theorem succeeds_iff_apply : op.Succeeds l r ↔ ∃ v, op.apply l r = .ok v := exists_congr fun _ => gives_iff

/-! ### Kinds of operands -/

/-- Whether two values of one kind that `==` takes are equal. -/
inductive Matched : Value → Value → Bool → Prop
  | numbers (x y : Float) : Matched (.number x) (.number y) (x == y)
  | strings (s t : String) : Matched (.string s) (.string t) (s == t)
  | booleans (b c : Bool) : Matched (.boolean b) (.boolean c) (b == c)

/-- No operator takes other kinds than those of `==`. -/
theorem exists_matched (same : l.kind = r.kind) (taken : l.kind ∈ op.accepts) : ∃ c, Matched l r c := by
  cases l with
  | number x => cases r with
    | number y => exact ⟨_, .numbers x y⟩
    | _ => cases same
  | string s => cases r with
    | string t => exact ⟨_, .strings s t⟩
    | _ => cases same
  | boolean b => cases r with
    | boolean c => exact ⟨_, .booleans b c⟩
    | _ => cases same
  | function _ | empty | list _ | table _ => cases op <;> simp [Value.kind, accepts] at taken
/-- Operators have values between those of one kind that they take. -/
theorem compute?_isSome (op : InfixOperator) (l r : Value) :
    (op.compute? l r).isSome ↔ l.kind = r.kind ∧ l.kind ∈ op.accepts := by
  unfold compute?
  split
  · cases op <;> simp [Value.kind, accepts, arithmetic?, truth?]
  · cases op <;> simp [Value.kind, accepts, truth?]
  · cases op <;> simp [Value.kind, accepts, truth?]
  · next numbers strings booleans =>
    refine iff_of_false (by simp) ?_
    rintro ⟨same, taken⟩
    obtain ⟨_, matched⟩ := exists_matched same taken
    cases matched with
    | numbers x y => exact numbers x y rfl rfl
    | strings s t => exact strings s t rfl rfl
    | booleans b c => exact booleans b c rfl rfl
theorem succeeds_iff (op : InfixOperator) (l r : Value) : op.Succeeds l r ↔ l.kind = r.kind ∧ l.kind ∈ op.accepts := by
  rw [succeeds_iff_apply, ← compute?_isSome, apply]
  cases op.compute? l r with
  | some v => simp
  | none =>
    simp only [Option.isSome_none, Bool.false_eq_true, iff_false]
    split <;> simp
/-- Where an operator has no value it blames one of its operands. -/
theorem apply_eq_error (fails : ¬ op.Succeeds l r) : op.apply l r =
    if l.kind ∈ op.accepts then .error ⟨.right, r.kind, [l.kind]⟩ else .error ⟨.left, l.kind, op.accepts⟩ := by
  rw [succeeds_iff, ← compute?_isSome, Option.not_isSome_iff_eq_none] at fails
  rw [apply, fails]
theorem blamesLeft (never : l.kind ∉ op.accepts) (r : Value) : op.BlamesLeft l r := by
  have fails : ¬ op.Succeeds l r := fun succeeds => never ((succeeds_iff op l r).mp succeeds).2
  have ends := ends_apply op l r
  rwa [apply_eq_error fails, if_neg never] at ends
theorem blamesRight (taken : l.kind ∈ op.accepts) (fails : ¬ op.Succeeds l r) : op.BlamesRight l r := by
  have ends := ends_apply op l r
  rwa [apply_eq_error fails, if_pos taken] at ends
/-- An operator takes a kind of left operands if it has a value for some of them. -/
theorem mem_accepts_iff (op : InfixOperator) (k : ValueKind) :
    k ∈ op.accepts ↔ ∃ l r : Value, l.kind = k ∧ op.Succeeds l r := by
  constructor
  · intro taken
    have value : ∃ v : Value, v.kind = k := by
      cases k with
      | number => exact ⟨.number 0, rfl⟩
      | string => exact ⟨.string "", rfl⟩
      | boolean => exact ⟨.boolean true, rfl⟩
      | empty => exact ⟨.empty, rfl⟩
      | list => exact ⟨.list [], rfl⟩
      | table => exact ⟨.table [], rfl⟩
      | function => exact ⟨.function ⟨0, [], ⟨[], ⟨⟨0, 0⟩, ⟨0, 0⟩⟩⟩, 0⟩, rfl⟩
    obtain ⟨v, rfl⟩ := value
    exact ⟨v, v, rfl, (succeeds_iff op v v).mpr ⟨rfl, taken⟩⟩
  · rintro ⟨l, r, rfl, succeeds⟩
    exact ((succeeds_iff op l r).mp succeeds).2

/-! ### Equality -/

theorem Matched.gives {c : Bool} (same : Matched l r c) :
    equal.Gives l r (.boolean c) ∧ unequal.Gives l r (.boolean !c) := by
  rw [gives_iff, gives_iff]
  cases same <;> exact ⟨rfl, rfl⟩
theorem equal_gives_iff (c : Bool) : equal.Gives l r (.boolean c) ↔ unequal.Gives l r (.boolean !c) := by
  constructor
  · intro gives
    obtain ⟨kinds, taken⟩ := (succeeds_iff equal l r).mp ⟨_, gives⟩
    obtain ⟨d, same⟩ := exists_matched kinds taken
    obtain ⟨rfl⟩ := gives_unique gives same.gives.1
    exact same.gives.2
  · intro gives
    obtain ⟨kinds, taken⟩ := (succeeds_iff unequal l r).mp ⟨_, gives⟩
    obtain ⟨d, same⟩ := exists_matched kinds taken
    have opposite : (!c) = !d := Value.boolean.inj (gives_unique gives same.gives.2)
    rw [Bool.not_inj opposite]
    exact same.gives.1

/-! ### Comparisons -/

/-- How two values compare that compare at all: numbers with numbers and texts with texts. -/
inductive Compared : Value → Value → Option Ordering → Prop
  | numbers (x y : Float) : Compared (.number x) (.number y) (orderNumbers x y)
  | strings (s t : String) : Compared (.string s) (.string t) (some (orderStrings s t))

/-- The comparisons take the same kinds of operands and tell from their order. -/
theorem comparison_spec (comparison : op ∈ [less, greater, atMost, atLeast]) : op.accepts = [.number, .string] ∧
    (∀ x y, op.arithmetic? x y = none) ∧ ∀ same order, op.truth? same order = some (order.any op.admits) := by
  simp only [List.mem_cons, List.not_mem_nil, or_false] at comparison
  rcases comparison with rfl | rfl | rfl | rfl <;> exact ⟨rfl, fun _ _ => rfl, fun _ _ => rfl⟩
theorem exists_compared (comparison : op ∈ [less, greater, atMost, atLeast]) (succeeds : op.Succeeds l r) :
    ∃ o, Compared l r o := by
  obtain ⟨same, taken⟩ := (succeeds_iff op l r).mp succeeds
  obtain ⟨c, matched⟩ := exists_matched same taken
  cases matched with
  | numbers x y => exact ⟨_, .numbers x y⟩
  | strings s t => exact ⟨_, .strings s t⟩
  | booleans b c =>
    rw [(comparison_spec comparison).1] at taken
    simp [Value.kind] at taken

namespace Compared

theorem gives_comparison (c : Compared l r o) (comparison : op ∈ [less, greater, atMost, atLeast]) :
    op.Gives l r (.boolean (o.any op.admits)) := by
  obtain ⟨-, noNumber, truth⟩ := comparison_spec comparison
  rw [gives_iff, apply]
  cases c with
  | numbers x y => simp only [compute?, noNumber, truth, Option.map_some]
  | strings s t => simp only [compute?, truth, Option.map_some]
theorem gives_equal (c : Compared l r o) : equal.Gives l r (.boolean (o == some .eq)) := by
  rw [gives_iff]
  cases c with
  | numbers x y =>
    rw [← Number.beq_eq_orderNumbers]
    rfl
  | strings s t =>
    have same : (some (orderStrings s t) == some .eq) = (s == t) := (beq_eq_orderStrings s t).symm
    rw [same]
    rfl
theorem swap (c : Compared l r o) : Compared r l (o.map Ordering.swap) := by
  cases c with
  | numbers x y =>
    rw [← Number.orderNumbers_swap]
    exact .numbers y x
  | strings s t =>
    rw [Option.map_some, ← orderStrings_swap]
    exact .strings t s
/-- What compares as less one after the other does so from the first to the last. -/
theorem trans (first : Compared l m o) (rest : Compared m r p) (less : o = some .lt) (less' : p = some .lt) :
    ∃ q, Compared l r q ∧ q = some .lt := by
  cases first with
  | numbers x y => cases rest with
    | numbers _ z => exact ⟨_, .numbers x z, Number.orderNumbers_trans less less'⟩
  | strings s t => cases rest with
    | strings _ u =>
      exact ⟨_, .strings s u, congrArg some (orderStrings_trans (Option.some.inj less) (Option.some.inj less'))⟩

end Compared

/-- What has a value is a comparison of the two values. -/
theorem compared_of_gives (comparison : op ∈ [less, greater, atMost, atLeast]) (gives : op.Gives l r v) :
    ∃ o, Compared l r o ∧ v = .boolean (o.any op.admits) := by
  obtain ⟨o, compared⟩ := exists_compared comparison ⟨v, gives⟩
  exact ⟨o, compared, gives_unique gives (compared.gives_comparison comparison)⟩
/-- Two comparisons that admit opposite orders give the same with their operands exchanged. -/
theorem gives_swap {op' : InfixOperator} (comparison : op ∈ [less, greater, atMost, atLeast])
    (comparison' : op' ∈ [less, greater, atMost, atLeast]) (opposite : ∀ o, op.admits o = op'.admits o.swap)
    (gives : op.Gives l r v) : op'.Gives r l v := by
  obtain ⟨o, c, rfl⟩ := compared_of_gives comparison gives
  have swapped := c.swap.gives_comparison comparison'
  have same : (o.map Ordering.swap).any op'.admits = o.any op.admits := by
    cases o with
    | none => rfl
    | some o => exact (opposite o).symm
  rwa [same] at swapped
theorem gives_swap_iff {op' : InfixOperator} (comparison : op ∈ [less, greater, atMost, atLeast])
    (comparison' : op' ∈ [less, greater, atMost, atLeast]) (opposite : ∀ o, op.admits o = op'.admits o.swap) :
    op.Gives l r v ↔ op'.Gives r l v := by
  refine ⟨gives_swap comparison comparison' opposite, gives_swap comparison' comparison fun o => ?_⟩
  rw [opposite, Ordering.swap_swap]
theorem atMost_gives {c d : Bool} (before : less.Gives l r (.boolean c)) (same : equal.Gives l r (.boolean d)) :
    atMost.Gives l r (.boolean (c || d)) := by
  obtain ⟨o, compared, gives⟩ := compared_of_gives (by decide) before
  obtain ⟨rfl⟩ := gives
  obtain ⟨rfl⟩ := gives_unique same compared.gives_equal
  have either : (o.any less.admits || o == some .eq) = o.any atMost.admits := by
    cases o with
    | none => rfl
    | some o => cases o <;> rfl
  rw [either]
  exact compared.gives_comparison (by decide)
/-- Values of which none is undefined compare in exactly one way. -/
theorem exists_ordering (succeeds : less.Succeeds l r) (defined : ¬ l.IsUndefined) (defined' : ¬ r.IsUndefined) :
    ∃ o : Ordering, less.Gives l r (.boolean o.isLT) ∧ equal.Gives l r (.boolean o.isEq) ∧
      greater.Gives l r (.boolean o.isGT) := by
  obtain ⟨o, compared⟩ := exists_compared (by decide) succeeds
  have some : ∃ w, o = some w := by
    cases compared with
    | strings s t => exact ⟨_, rfl⟩
    | numbers x y =>
      have defined : x.isNaN = false := Bool.eq_false_iff.mpr fun undefined => defined ⟨x, rfl, undefined⟩
      have defined' : y.isNaN = false := Bool.eq_false_iff.mpr fun undefined => defined' ⟨y, rfl, undefined⟩
      exact ⟨_, Number.orderNumbers_of_defined defined defined'⟩
  obtain ⟨w, rfl⟩ := some
  have equal := compared.gives_equal
  have same : (Option.some w == Option.some Ordering.eq) = w.isEq := by cases w <;> rfl
  rw [same] at equal
  exact ⟨w, compared.gives_comparison (by decide), equal, compared.gives_comparison (by decide)⟩
theorem less_trans (first : less.Gives l m (.boolean true)) (rest : less.Gives m r (.boolean true)) :
    less.Gives l r (.boolean true) := by
  have before {o : Option Ordering} (gives : Value.boolean true = .boolean (o.any less.admits)) : o = some .lt := by
    cases o with
    | none => cases gives
    | some o => cases o <;> first | rfl | cases gives
  obtain ⟨o, compared, gives⟩ := compared_of_gives (by decide) first
  obtain ⟨p, compared', gives'⟩ := compared_of_gives (by decide) rest
  obtain ⟨q, whole, rfl⟩ := compared.trans compared' (before gives) (before gives')
  exact whole.gives_comparison (by decide)
theorem gives_undefined {x y : Float} (undefined : x.isNaN ∨ y.isNaN) :
    (∀ op ∈ [equal, less, greater, atMost, atLeast], op.Gives (.number x) (.number y) (.boolean false)) ∧
      unequal.Gives (.number x) (.number y) (.boolean true) := by
  have compared := Compared.numbers x y
  rw [Number.orderNumbers_of_isNaN undefined] at compared
  refine ⟨fun op member => ?_, (equal_gives_iff false).mp compared.gives_equal⟩
  rcases List.mem_cons.mp member with rfl | comparison
  · exact compared.gives_equal
  · exact compared.gives_comparison comparison
/-- On finite numbers `<` is that of the rational numbers that they stand for. -/
theorem less_gives_numbers {x y : Float} {q r : ℚ} (value : Number.value? x = some q)
    (value' : Number.value? y = some r) : less.Gives (.number x) (.number y) (.boolean (decide (q < r))) := by
  have gives : less.Gives (.number x) (.number y) _ := (Compared.numbers x y).gives_comparison (by decide)
  have same : (orderNumbers x y).any less.admits = decide (q < r) := by
    rw [Number.orderNumbers_of_value? value value', Bool.eq_iff_iff, decide_eq_true_iff, ← compare_lt_iff_lt]
    exact Ordering.isLT_iff_eq_lt
  rwa [same] at gives
theorem less_gives_strings (s t : String) :
    less.Gives (.string s) (.string t) (.boolean (decide (scalars s < scalars t))) := by
  have gives : less.Gives (.string s) (.string t) _ := (Compared.strings s t).gives_comparison (by decide)
  have same : (some (orderStrings s t)).any less.admits = decide (scalars s < scalars t) := by
    rw [Bool.eq_iff_iff, decide_eq_true_iff, scalars_lt_iff, ← orderStrings_eq_lt]
    exact Ordering.isLT_iff_eq_lt
  rwa [same] at gives

/-! ### The main result -/

/-- What the operators between operands do with the values `l` and `r`. -/
structure Laws (l r : Value) : Prop where
  arithmetic : ∀ op ∈ [plus, minus, times, divided], op.Succeeds l r ↔ l.kind = .number ∧ r.kind = .number
  equality : ∀ op ∈ [equal, unequal], op.Succeeds l r ↔ l.kind = r.kind ∧ l.kind ∈ [.number, .string, .boolean]
  comparison : ∀ op ∈ [less, greater, atMost, atLeast],
    op.Succeeds l r ↔ l.kind = r.kind ∧ l.kind ∈ [.number, .string]
  /-- The left operand is blamed if its kind is never accepted there. -/
  left (op : InfixOperator) : (∀ l' r' : Value, l'.kind = l.kind → ¬ op.Succeeds l' r') → op.BlamesLeft l r
  /-- The right operand is blamed if it does not go with a left one of an accepted kind. -/
  right (op : InfixOperator) : (∃ l' r' : Value, l'.kind = l.kind ∧ op.Succeeds l' r') → ¬ op.Succeeds l r →
    op.BlamesRight l r
  truth : ∀ op ∈ [equal, unequal, less, greater, atMost, atLeast], op.Succeeds l r → ∃ c, op.Gives l r (.boolean c)
  negation (c : Bool) : equal.Gives l r (.boolean c) ↔ unequal.Gives l r (.boolean !c)
  mirrored (v : Value) : less.Gives l r v ↔ greater.Gives r l v
  mirrored' (v : Value) : atMost.Gives l r v ↔ atLeast.Gives r l v
  either : less.Succeeds l r → ∃ c d, less.Gives l r (.boolean c) ∧ equal.Gives l r (.boolean d) ∧
    atMost.Gives l r (.boolean (c || d))
  /-- Exactly one of the three is true. -/
  exactlyOne : less.Succeeds l r → ¬ l.IsUndefined → ¬ r.IsUndefined → ∃ o : Ordering,
    less.Gives l r (.boolean o.isLT) ∧ equal.Gives l r (.boolean o.isEq) ∧ greater.Gives l r (.boolean o.isGT)
  trans (m : Value) : less.Gives l m (.boolean true) → less.Gives m r (.boolean true) → less.Gives l r (.boolean true)

theorem laws_of_values (l r : Value) : Laws l r where
  arithmetic := by
    intro op member
    have taken : op.accepts = [.number] := by
      simp only [List.mem_cons, List.not_mem_nil, or_false] at member
      rcases member with rfl | rfl | rfl | rfl <;> rfl
    rw [succeeds_iff, taken, List.mem_singleton]
    constructor
    · rintro ⟨same, number⟩
      exact ⟨number, same.symm.trans number⟩
    · rintro ⟨number, number'⟩
      exact ⟨number.trans number'.symm, number⟩
  equality := by
    intro op member
    rw [succeeds_iff]
    rcases List.mem_pair.mp member with rfl | rfl <;> rfl
  comparison := by
    intro op member
    rw [succeeds_iff, (comparison_spec member).1]
  left op never := by
    refine blamesLeft (fun taken => ?_) r
    obtain ⟨l', r', same, succeeds⟩ := (mem_accepts_iff op l.kind).mp taken
    exact never l' r' same succeeds
  right op taken fails := blamesRight ((mem_accepts_iff op l.kind).mpr taken) fails
  truth := by
    intro op member succeeds
    obtain ⟨v, gives⟩ := succeeds
    rw [List.mem_cons, List.mem_cons] at member
    rcases member with rfl | rfl | comparison
    · obtain ⟨kinds, taken⟩ := (succeeds_iff equal l r).mp ⟨v, gives⟩
      obtain ⟨c, same⟩ := exists_matched kinds taken
      exact ⟨c, same.gives.1⟩
    · obtain ⟨kinds, taken⟩ := (succeeds_iff unequal l r).mp ⟨v, gives⟩
      obtain ⟨c, same⟩ := exists_matched kinds taken
      exact ⟨!c, same.gives.2⟩
    · obtain ⟨o, compared, rfl⟩ := compared_of_gives comparison gives
      exact ⟨_, gives⟩
  negation c := equal_gives_iff c
  mirrored v := gives_swap_iff (by decide) (by decide) fun o => by cases o <;> rfl
  mirrored' v := gives_swap_iff (by decide) (by decide) fun o => by cases o <;> rfl
  either := by
    intro succeeds
    obtain ⟨o, compared⟩ := exists_compared (by decide) succeeds
    have before : less.Gives l r _ := compared.gives_comparison (by decide)
    exact ⟨_, _, before, compared.gives_equal, atMost_gives before compared.gives_equal⟩
  exactlyOne succeeds defined defined' := exists_ordering succeeds defined defined'
  trans m first rest := less_trans first rest
/-- On all values the operators succeed or blame an operand by their kinds, and their truth values
    obey the laws of an order. On finite numbers that is the order of the rational numbers that they
    stand for, and on texts the lexicographic one of their scalar values, which is that of their
    bytes; to the undefined number every number is unequal. -/
theorem laws : (∀ l r, Laws l r) ∧
    (∀ x y q r, Number.value? x = some q → Number.value? y = some r →
      less.Gives (.number x) (.number y) (.boolean (decide (q < r)))) ∧
    (∀ s t, less.Gives (.string s) (.string t) (.boolean (decide (scalars s < scalars t))) ∧
      (scalars s < scalars t ↔ utf8 s < utf8 t)) ∧
    ∀ x y, x.isNaN ∨ y.isNaN →
      (∀ op ∈ [equal, less, greater, atMost, atLeast], op.Gives (.number x) (.number y) (.boolean false)) ∧
        unequal.Gives (.number x) (.number y) (.boolean true) := by
  refine ⟨laws_of_values, ?_, ?_, ?_⟩
  · intro x y q r value value'
    exact less_gives_numbers value value'
  · intro s t
    exact ⟨less_gives_strings s t, scalars_lt_iff.trans utf8_lt_iff.symm⟩
  · intro x y undefined
    exact gives_undefined undefined
/-- A text compares with no number, the empty value with nothing, and the undefined number is not
    equal to itself. -/
theorem laws_mixed :
    less.BlamesRight (.string "가") (.number 0) ∧ less.BlamesLeft .empty (.number 0) ∧
      unequal.Gives (.number Float.nan) (.number Float.nan) (.boolean true) := by
  obtain ⟨values, -, -, undefined⟩ := laws
  have taken (l r : Value) := (values l r).comparison less (by decide)
  refine ⟨(values _ _).right less ⟨.string "", .string "", rfl, ?_⟩ fun succeeds => ?_,
    (values _ _).left less fun l' r' same succeeds => ?_, (undefined Float.nan Float.nan (.inl rfl)).2⟩
  · exact (taken _ _).mpr ⟨rfl, by decide⟩
  · exact absurd ((taken _ _).mp succeeds).1 (by decide)
  · have kind := ((taken l' r').mp succeeds).2
    rw [same] at kind
    exact absurd kind (by decide)

end InfixOperator
end KoreanScript
