import Mathlib
import KoreanScript.Session
import KoreanScript.Proofs.FiniteNumbers
import KoreanScript.Proofs.ReadBack

/-!
Data reads back. The text of a value that is made of finite numbers, truth values, lists
and tables is an expression which, wherever it is evaluated, gives an equal value and
changes nothing. Negative numbers are written with an operator in front of them, and the
two zeros alike, so the value that comes back is equal without being the same.
-/
namespace KoreanScript
open Grammar

/-! ### Data -/

namespace Value

/-- A finite number or a truth value. -/
inductive IsScalar : Value → Prop
  | number {x : Float} : x.isFinite → IsScalar (.number x)
  | boolean (b : Bool) : IsScalar (.boolean b)
/-- Scalars, lists of data, and tables of data under scalars no two of which are equal. -/
inductive IsData : Value → Prop
  | scalar {v : Value} : v.IsScalar → IsData v
  | list {vs : List Value} : (∀ v ∈ vs, v.IsData) → IsData (.list vs)
  | table {es : Table} : (∀ e ∈ es, e.1.IsScalar) → es.Pairwise (fun d e => (d.1 == e.1) = false) →
    (∀ e ∈ es, e.2.IsData) → IsData (.table es)

theorem IsScalar.isKey {v : Value} (scalar : v.IsScalar) : v.isKey := by
  cases scalar with
  | number finite =>
    rw [Value.isKey, Number.isNaN_of_isFinite finite]
    rfl
  | boolean b => rfl
/-- What is equal to a key can be a key. -/
theorem isKey_of_beq {k l : Value} (equal : k == l) (key : l.isKey) : k.isKey := by
  cases l with
  | number x =>
    cases k with
    | number y =>
      rw [isKey, Number.isNaN_of_beq equal]
      rfl
    | _ => cases equal
  | string s =>
    cases k with
    | string t => rfl
    | _ => cases equal
  | boolean b =>
    cases k with
    | boolean c => rfl
    | _ => cases equal
  | function _ | empty | list _ | table _ => cases key

end Value

/-- A new key goes behind all others. -/
theorem Entries.insert_of_new {k v : Value} {es : Table} (new : ∀ e ∈ es, (e.1 == k) = false) :
    Entries.insert k v es = es ++ [(k, v)] := by
  induction es with
  | nil => rfl
  | cons e es ih =>
    rw [List.forall_mem_cons] at new
    rw [insert, new.1, ih new.2]
    rfl

/-! ### Expressions that give data -/

/-- Wherever the expression is evaluated, it gives a value equal to `v` and changes nothing. -/
def Expr.Gives (e : Expr) (v : Value) : Prop :=
  ∀ (call : Closure → List Value → Eval Value) (f : FrameId) (s : Store),
    ∃ w, Expr.eval call f e s = .done w s ∧ w == v

section
variable (call : Closure → List Value → Eval Value) (f : FrameId)

theorem Expr.evalAll_gives {es : List Expr} {vs : List Value} (gives : List.Forall₂ Expr.Gives es vs) (s : Store) :
    ∃ ws, Expr.evalAll call f es s = .done ws s ∧ Value.sameAll ws vs := by
  induction gives with
  | nil => exact ⟨[], by rw [Expr.evalAll, Eval.pure_apply], rfl⟩
  | cons first _ ih =>
    obtain ⟨w, done, equal⟩ := first call f s
    obtain ⟨ws, rest, equals⟩ := ih
    refine ⟨w :: ws, ?_, ?_⟩
    · simp only [Expr.evalAll, Eval.bind_apply, done, rest, Eval.pure_apply]
    · rw [Value.sameAll, Bool.and_eq_true]
      exact ⟨equal, equals⟩
/-- Entries under keys no two of which are equal, and none equal to one that is there, all go
    behind what is there. -/
theorem Expr.evalEntries_gives {ds : List (Expr × Expr)} {es : Table}
    (gives : List.Forall₂ (fun d e => d.1.Gives e.1 ∧ d.2.Gives e.2) ds es) (keys : ∀ e ∈ es, e.1.isKey)
    (apart : es.Pairwise fun d e => (d.1 == e.1) = false) (table : Table)
    (new : ∀ t ∈ table, ∀ e ∈ es, (t.1 == e.1) = false) (s : Store) :
    ∃ fs, Expr.evalEntries call f table ds s = .done (table ++ fs) s ∧ Value.sameEntries fs es := by
  induction gives generalizing table with
  | nil => exact ⟨[], by rw [Expr.evalEntries, Eval.pure_apply, List.append_nil], rfl⟩
  | @cons d e ds es first _ ih =>
    obtain ⟨k, key, sameKey⟩ := first.1 call f s
    obtain ⟨w, value, equal⟩ := first.2 call f s
    rw [List.forall_mem_cons] at keys
    rw [List.pairwise_cons] at apart
    have behind : Entries.insert k w table = table ++ [(k, w)] := by
      refine Entries.insert_of_new fun t member => ?_
      have other := new t member e (by simp)
      by_contra same
      rw [Value.beq_trans (by simpa using same) sameKey] at other
      cases other
    have later : ∀ t ∈ table ++ [(k, w)], ∀ e ∈ es, (t.1 == e.1) = false := by
      intro t member e' inside
      rcases List.mem_append.mp member with before | here
      · exact new t before e' (by simp [inside])
      · obtain rfl : t = (k, w) := by simpa using here
        have other := apart.1 e' inside
        by_contra same
        rw [Value.beq_trans (by rwa [Value.beq_comm]) (by simpa using same)] at other
        cases other
    obtain ⟨fs, rest, equals⟩ := ih keys.2 apart.2 _ later
    refine ⟨(k, w) :: fs, ?_, ?_⟩
    · simp only [Expr.evalEntries, Eval.bind_apply, key, Value.isKey_of_beq sameKey keys.1, if_pos, value, behind, rest,
        List.append_assoc, List.singleton_append]
    · rw [Value.sameEntries, Bool.and_eq_true, Bool.and_eq_true]
      exact ⟨⟨sameKey, equal⟩, equals⟩

end

theorem Expr.Gives.list {es : List Expr} {vs : List Value} (gives : List.Forall₂ Expr.Gives es vs) (span : Span) :
    (Expr.list es span).Gives (.list vs) := by
  intro call f s
  obtain ⟨ws, done, equal⟩ := Expr.evalAll_gives call f gives s
  refine ⟨.list ws, ?_, equal⟩
  simp only [Expr.eval, Eval.bind_apply, done, Eval.pure_apply]
theorem Expr.Gives.table {ds : List (Expr × Expr)} {es : Table}
    (gives : List.Forall₂ (fun d e => d.1.Gives e.1 ∧ d.2.Gives e.2) ds es) (keys : ∀ e ∈ es, e.1.isKey)
    (apart : es.Pairwise fun d e => (d.1 == e.1) = false) (span : Span) : (Expr.table ds span).Gives (.table es) := by
  intro call f s
  obtain ⟨fs, done, equal⟩ := Expr.evalEntries_gives call f gives keys apart [] (by simp) s
  refine ⟨.table fs, ?_, equal⟩
  simp only [Expr.eval, Eval.bind_apply, done, Eval.pure_apply, List.nil_append]

/-! ### Marks of data -/

/-- Tokens with these marks are an expression that gives the value. -/
def Denotes (ms : List Mark) (v : Value) : Prop :=
  ∀ ts : List Token, ts.map Token.mark = ms → ∃ d r, Derives .expression ts d r ∧ d.Gives v
/-- The marks of a key, a colon and the marks of its value. -/
def DenotesEntry (ms : List Mark) (e : Value × Value) : Prop :=
  ∃ ks ws, ms = ks ++ .colon :: ws ∧ Denotes ks e.1 ∧ Denotes ws e.2

namespace Grammar

theorem Items.of_commas {close : Mark} {ms : List Mark} {v : Value} {mss : List (List Mark)} {vs : List Value}
    (first : Denotes ms v) (others : List.Forall₂ Denotes mss vs) {ts : List Token}
    (marks : ts.map Token.mark = Mark.commas (ms :: mss) ++ [close]) :
    ∃ ds s, Items close ts ds s ∧ List.Forall₂ Expr.Gives ds (v :: vs) := by
  induction others generalizing ms v ts with
  | nil =>
    rw [Mark.commas, List.intercalate_singleton] at marks
    obtain ⟨ts, us, rfl, inner, rest⟩ := List.map_eq_append_iff.mp marks
    obtain ⟨u, rfl, closed⟩ := Token.of_map_mark_singleton rest
    obtain ⟨d, r, derived, gives⟩ := first ts inner
    exact ⟨_, _, .last derived closed, .cons gives .nil⟩
  | cons second _ ih =>
    rw [Mark.commas, List.intercalate_cons_cons] at marks
    simp only [List.append_assoc, List.cons_append, List.nil_append] at marks
    obtain ⟨ts, us, rfl, inner, rest⟩ := List.map_eq_append_iff.mp marks
    obtain ⟨u, us, rfl, comma, rest⟩ := Token.of_map_mark_cons rest
    obtain ⟨d, r, derived, gives⟩ := first ts inner
    obtain ⟨ds, s, items, all⟩ := ih second rest
    exact ⟨_, _, .more derived comma items, .cons gives all⟩
theorem Elements.of_commas {close : Mark} {mss : List (List Mark)} {vs : List Value}
    (items : List.Forall₂ Denotes mss vs) {ts : List Token}
    (marks : ts.map Token.mark = Mark.commas mss ++ [close]) :
    ∃ ds s, Elements close ts ds s ∧ List.Forall₂ Expr.Gives ds vs := by
  cases items with
  | nil =>
    obtain ⟨t, rfl, closed⟩ := Token.of_map_mark_singleton marks
    exact ⟨[], _, .none closed, .nil⟩
  | cons first others =>
    obtain ⟨ds, s, items, gives⟩ := Items.of_commas first others marks
    exact ⟨ds, s, .some items, gives⟩
theorem Pairs.of_commas {ms : List Mark} {e : Value × Value} {mss : List (List Mark)} {es : Table}
    (first : DenotesEntry ms e) (others : List.Forall₂ DenotesEntry mss es) {ts : List Token}
    (marks : ts.map Token.mark = Mark.commas (ms :: mss) ++ [.closeList]) :
    ∃ ds s, Pairs ts ds s ∧ List.Forall₂ (fun d e => d.1.Gives e.1 ∧ d.2.Gives e.2) ds (e :: es) := by
  induction others generalizing ms e ts with
  | nil =>
    obtain ⟨ks, ws, rfl, key, value⟩ := first
    rw [Mark.commas, List.intercalate_singleton] at marks
    simp only [List.append_assoc, List.cons_append] at marks
    obtain ⟨ts, us, rfl, inner, rest⟩ := List.map_eq_append_iff.mp marks
    obtain ⟨u, us, rfl, colon, rest⟩ := Token.of_map_mark_cons rest
    obtain ⟨us, vs, rfl, inner', rest⟩ := List.map_eq_append_iff.mp rest
    obtain ⟨v, rfl, closed⟩ := Token.of_map_mark_singleton rest
    obtain ⟨c, _, left, gives⟩ := key ts inner
    obtain ⟨d, _, right, gives'⟩ := value us inner'
    exact ⟨_, _, .last left colon right closed, .cons ⟨gives, gives'⟩ .nil⟩
  | cons second _ ih =>
    obtain ⟨ks, ws, rfl, key, value⟩ := first
    rw [Mark.commas, List.intercalate_cons_cons] at marks
    simp only [List.append_assoc, List.cons_append, List.nil_append] at marks
    obtain ⟨ts, us, rfl, inner, rest⟩ := List.map_eq_append_iff.mp marks
    obtain ⟨u, us, rfl, colon, rest⟩ := Token.of_map_mark_cons rest
    obtain ⟨us, vs, rfl, inner', rest⟩ := List.map_eq_append_iff.mp rest
    obtain ⟨v, vs, rfl, comma, rest⟩ := Token.of_map_mark_cons rest
    obtain ⟨c, _, left, gives⟩ := key ts inner
    obtain ⟨d, _, right, gives'⟩ := value us inner'
    obtain ⟨ds, s, pairs, all⟩ := ih second rest
    exact ⟨_, _, .more left colon right comma pairs, .cons ⟨gives, gives'⟩ all⟩
theorem Entries.of_commas {mss : List (List Mark)} {es : Table} (items : List.Forall₂ DenotesEntry mss es)
    {ts : List Token} (marks : ts.map Token.mark = Mark.commas mss ++ [.closeList]) :
    ∃ ds s, Entries ts ds s ∧ List.Forall₂ (fun d e => d.1.Gives e.1 ∧ d.2.Gives e.2) ds es := by
  cases items with
  | nil =>
    obtain ⟨t, rfl, closed⟩ := Token.of_map_mark_singleton marks
    exact ⟨[], _, .none closed, .nil⟩
  | cons first others =>
    obtain ⟨ds, s, pairs, gives⟩ := Pairs.of_commas first others marks
    exact ⟨ds, s, .some pairs, gives⟩

end Grammar

/-! ### Texts of data -/

/-- A minus sign in front of what stands there. -/
theorem Reads.negative {text : String} {ms : List Mark} (operand : Reads text ms) :
    Reads ("-" ++ text) (.ofPrefix .minus :: ms) := by
  have split : ("-" ++ text).toList = '-' :: text.toList := by
    rw [String.toList_append]
    rfl
  refine .of_cons split (by decide) ?_
  intro opened rest ends
  -- An opening bracket in front of it makes no difference to any sign but one.
  have read : Lexeme.first opened '-' (text.toList ++ rest) = .plain .operator ['-'] := by
    unfold Lexeme.first
    rw [if_neg (by simp), if_neg fun joined => absurd joined.1 (by decide), if_pos (by decide)]
  have marks : Token.marksFrom opened ('-' :: (text.toList ++ rest)) =
      .ofPrefix .minus :: Token.marksFrom false (text.toList ++ rest) :=
    Token.marksFrom_plain [] (by decide) (by decide) read rfl
  rw [marks, operand.marks false ends, List.cons_append]

namespace Value

/-- The text of the value is read as marks that denote the value. -/
def Written (v : Value) : Prop := ∃ ms, Reads v.render ms ∧ Denotes ms v

theorem IsScalar.written {v : Value} (scalar : v.IsScalar) : v.Written := by
  cases scalar with
  | boolean b =>
    refine ⟨_, .boolean b, fun ts marks => ?_⟩
    obtain ⟨t, rfl, found⟩ := Token.of_map_mark_singleton marks
    obtain ⟨kind, value⟩ := Token.is_iff.mp found
    refine ⟨_, _, (Derives.boolean kind value).weaken (by decide), fun call f s => ?_⟩
    exact ⟨.boolean b, by rw [Expr.eval, Eval.pure_apply], by cases b <;> rfl⟩
  | @number x finite =>
    obtain ⟨d, e, finite, shown⟩ := Number.render_of_isFinite finite
    have reads := Reads.number ⟨d, e, rfl⟩ finite
    obtain ⟨c, cs, text, _, _, read⟩ := Decimal.read?_render finite
    rw [← text] at read
    rcases shown with ⟨same, equal⟩ | ⟨opposite, equal⟩
    · refine ⟨_, by rwa [render, same], fun ts marks => ?_⟩
      obtain ⟨t, rfl, found⟩ := Token.of_map_mark_singleton marks
      obtain ⟨kind, value⟩ := Token.is_iff.mp found
      have read : Decimal.read? t.value = some (Decimal.nearest d e) := by rwa [value]
      refine ⟨_, _, (Derives.number kind read).weaken (by decide), fun call f s => ?_⟩
      exact ⟨.number (Decimal.nearest d e), by rw [Expr.eval, Eval.pure_apply], equal⟩
    · refine ⟨_, by rw [render, opposite]; exact reads.negative, fun ts marks => ?_⟩
      obtain ⟨t, us, rfl, minus, rest⟩ := Token.of_map_mark_cons marks
      obtain ⟨u, rfl, found⟩ := Token.of_map_mark_singleton rest
      obtain ⟨kind, value⟩ := Token.is_iff.mp found
      have read : Decimal.read? u.value = some (Decimal.nearest d e) := by rwa [value]
      have negated := Derives.lead minus ((Derives.number kind read).weaken (by decide))
      refine ⟨_, _, negated.weaken (by decide), fun call f s => ?_⟩
      refine ⟨.number (-Decimal.nearest d e), ?_, equal⟩
      simp only [Expr.eval, Eval.bind_apply, Eval.pure_apply, PrefixOperator.compute?]
theorem written_all {vs : List Value} (written : ∀ v ∈ vs, v.Written) :
    ∃ mss, List.Forall₂ Reads (renderAll vs) mss ∧ List.Forall₂ Denotes mss vs := by
  induction vs with
  | nil => exact ⟨[], .nil, .nil⟩
  | cons v vs ih =>
    rw [List.forall_mem_cons] at written
    obtain ⟨ms, reads, denotes⟩ := written.1
    obtain ⟨mss, all, each⟩ := ih written.2
    exact ⟨ms :: mss, .cons reads all, .cons denotes each⟩
theorem written_entries {es : Table} (keys : ∀ e ∈ es, e.1.Written) (values : ∀ e ∈ es, e.2.Written) :
    ∃ mss, List.Forall₂ Reads (renderEntries es) mss ∧ List.Forall₂ DenotesEntry mss es := by
  induction es with
  | nil => exact ⟨[], .nil, .nil⟩
  | cons e es ih =>
    rw [List.forall_mem_cons] at keys values
    obtain ⟨ks, readsKey, denotesKey⟩ := keys.1
    obtain ⟨ws, reads, denotes⟩ := values.1
    obtain ⟨mss, all, each⟩ := ih keys.2 values.2
    exact ⟨_, .cons (readsKey.entry reads) all, .cons ⟨ks, ws, rfl, denotesKey, denotes⟩ each⟩
/-- The text of data denotes it. -/
theorem IsData.written {v : Value} (data : v.IsData) : v.Written := by
  induction data with
  | scalar scalar => exact scalar.written
  | list _ elements =>
    obtain ⟨mss, reads, denotes⟩ := written_all elements
    refine ⟨_, .list reads, fun ts marks => ?_⟩
    obtain ⟨t, us, rfl, opens, rest⟩ := Token.of_map_mark_cons marks
    obtain ⟨ds, s, elements, gives⟩ := Elements.of_commas denotes rest
    exact ⟨_, _, (Derives.list opens elements).weaken (by decide), .list gives _⟩
  | table scalars apart _ values =>
    obtain ⟨mss, reads, denotes⟩ := written_entries (fun e member => (scalars e member).written) values
    refine ⟨_, .table reads, fun ts marks => ?_⟩
    obtain ⟨t, us, rfl, opens, rest⟩ := Token.of_map_mark_cons marks
    obtain ⟨u, us, rfl, marker, rest⟩ := Token.of_map_mark_cons rest
    obtain ⟨ds, s, entries, gives⟩ := Entries.of_commas denotes rest
    have keys := fun e member => (scalars e member).isKey
    exact ⟨_, _, (Derives.table opens marker entries).weaken (by decide), .table gives keys apart _⟩

end Value

/-! ### Texts of data, run -/

namespace Session

/-- In any session the text of data gives an equal value, writes nothing and leaves all
    variables as they are. -/
theorem execute_render {v : Value} (data : v.IsData) (depth : Nat) (s : Session) :
    ∃ w, s.execute depth v.render = some ⟨.ok w, [], ⟨s.store.silence⟩⟩ ∧ w == v := by
  obtain ⟨ms, reads, denotes⟩ := data.written
  have marks : (Token.scan v.render).tokens.map Token.mark = ms := by
    have read := reads.marks false .nil
    rwa [Token.marksFrom_nil, List.append_nil, List.append_nil] at read
  obtain ⟨d, r, derived, gives⟩ := denotes _ marks
  have statements := Statements.cons (.bare (.expression derived)) .nil (by simp)
  rw [List.append_nil] at statements
  have read : Program.ofSource v.render = .ok ⟨[.expression d], _⟩ :=
    (Program.ofTokens_iff_derives (Program.kind_ne_finish_of_scan v.render) _).mpr ⟨statements, rfl⟩
  obtain ⟨w, done, equal⟩ := gives (Closure.apply depth) globals s.store.silence
  refine ⟨w, ?_, equal⟩
  simp only [execute, read, observe, Program.eval, Statement.evalAll, Statement.eval, Eval.bind_apply, done,
    Eval.pure_apply]
  rfl
/-- Data reads back: its text, run in a session in which nothing has been done, gives an equal
    value and writes nothing. -/
theorem initial_execute_render {v : Value} (data : v.IsData) (depth : Nat) :
    ∃ w, initial.execute depth v.render = some ⟨.ok w, [], initial⟩ ∧ w == v :=
  execute_render data depth initial

/-- A list with a zero that has a sign and a table in which a negative number is a key. -/
theorem initial_execute_render_nested :
    ∃ v w, v = Value.list [.number (-0.0), .table [(.number (-2.5), .boolean true), (.boolean false, .list [])]] ∧
      v.IsData ∧ initial.execute 0 v.render = some ⟨.ok w, [], initial⟩ ∧ w == v := by
  have data : Value.IsData (.list [.number (-0.0), .table [(.number (-2.5), .boolean true), (.boolean false, .list [])]]) := by
    have zero : (-0.0 : Float).isFinite := by decide +kernel
    have key : (-2.5 : Float).isFinite := by decide +kernel
    have table : Value.IsData (.table [(.number (-2.5), .boolean true), (.boolean false, .list [])]) := by
      refine .table ?_ ?_ ?_
      · simp [Value.IsScalar.number key, Value.IsScalar.boolean]
      · exact List.pairwise_pair.mpr rfl
      · simp [Value.IsData.scalar (.boolean true), Value.IsData.list]
    refine .list ?_
    simp [Value.IsData.scalar (.number zero), table]
  obtain ⟨w, run, equal⟩ := initial_execute_render data 0
  exact ⟨_, w, rfl, data, run, equal⟩

end Session
end KoreanScript
