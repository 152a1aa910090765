import KoreanScript.Proofs.Naming

/-!
Literals and the builtin that inserts. A list literal does what calls of the builtin do
that insert its elements one after the other into an empty list. A table literal gives
what such calls give, and it gives something exactly if they do; but it looks at each key
before it goes on, so that a key which cannot be one leaves its value unevaluated.
-/
namespace KoreanScript

/-- `Inserting base rows e`: the expression `e` is a call of the inserting builtin within another, with
    one row of arguments each behind the call within, and with `base` innermost. -/
inductive Expr.Inserting (base : Expr) : List (List Expr) → Expr → Prop
  | nil : Inserting base [] base
  | insert {rows : List (List Expr)} {e : Expr} (row : List Expr) (place span : Span) : Inserting base rows e →
    Inserting base (rows ++ [row]) (.call (.identifier ⟨Builtin.insert.name, place⟩) (e :: row) span)

section
variable {depth : Nat} {f : FrameId}

/-! ### One after the other -/

theorem Expr.evalAll_append (call : Closure → List Value → Eval Value) (ds es : List Expr) :
    evalAll call f (ds ++ es) = (do
      let vs ← evalAll call f ds
      let ws ← evalAll call f es
      pure (vs ++ ws)) := by
  induction ds with
  | nil => simp only [List.nil_append, evalAll, pure_bind, bind_pure]
  | cons d ds ih => simp only [List.cons_append, evalAll, ih, bind_assoc, pure_bind]
theorem Expr.evalEntries_append (call : Closure → List Value → Eval Value) (table : Table) (ds es : List (Expr × Expr)) :
    evalEntries call f table (ds ++ es) = (do
      let entries ← evalEntries call f table ds
      evalEntries call f entries es) := by
  induction ds generalizing table with
  | nil => simp only [List.nil_append, evalEntries, pure_bind]
  | cons d ds ih =>
    simp only [List.cons_append, evalEntries, bind_assoc]
    congr
    funext key
    split
    · simp only [ih, bind_assoc]
    · rfl

/-! ### Inserting -/

theorem Builtin.apply_insert_element (vs : List Value) (v : Value) (span : Span) :
    Builtin.insert.apply [.list vs, v] span = pure (.list (vs ++ [v])) := rfl
theorem Builtin.apply_insert_entry (es : Table) (k v : Value) (span : Span) :
    Builtin.insert.apply [.table es, k, v] span =
      if k.isKey then pure (.table (Entries.insert k v es)) else Eval.fail (.builtin .insert (.key k.describe)) span := by
  by_cases hashable : k.isKey
  · rw [if_pos hashable, apply, answer_insertKey, checkKey, if_pos hashable]
    rfl
  · rw [if_neg hashable, apply, answer_insertKey, checkKey, if_neg hashable]
    rfl

/-- A call that inserts evaluates what it inserts into and then the row. -/
theorem Expr.eval_insert (e : Expr) (row : List Expr) (place span : Span) :
    (Expr.call (.identifier ⟨Builtin.insert.name, place⟩) (e :: row) span).eval (Closure.apply depth) f = (do
      let v ← e.eval (Closure.apply depth) f
      let vs ← evalAll (Closure.apply depth) f row
      Builtin.insert.apply (v :: vs) span) := by
  rw [eval_callBuiltin (Builtin.ofName?_name .insert), evalAll]
  simp only [bind_assoc, pure_bind]

/-- A call that inserts an entry gives what the literal's own step gives, though it looks at the key only
    behind the value. -/
theorem Expr.insert_entry_iff (table : Table) (k d : Expr) (span : Span) (s t : Store) (v : Value) :
    (do let vs ← evalAll (Closure.apply depth) f [k, d]
        Builtin.insert.apply (.table table :: vs) span) s = .done v t ↔
      (do let entries ← evalEntries (Closure.apply depth) f table [(k, d)]
          pure (Value.table entries)) s = .done v t := by
  simp only [evalAll, evalEntries, bind_assoc, pure_bind, Builtin.apply_insert_entry]
  rw [Eval.bind_eq_done, Eval.bind_eq_done]
  refine exists_congr fun key => exists_congr fun u => and_congr_right fun _ => ?_
  by_cases hashable : key.isKey
  · simp only [if_pos hashable, bind_assoc, pure_bind]
  · simp only [if_neg hashable]
    constructor
    · intro refused
      obtain ⟨_, _, _, fails⟩ := Eval.bind_eq_done.mp refused
      cases fails
    · intro fails
      cases fails

/-- Calls that insert the elements of a list, one each, do what the literal does. -/
theorem Expr.Inserting.eval_list {start : Span} {rows : List (List Expr)} {e : Expr}
    (inserting : Inserting (.list [] start) rows e) {es : List Expr} (elements : rows = es.map fun d => [d]) (span : Span) :
    e.eval (Closure.apply depth) f = (Expr.list es span).eval (Closure.apply depth) f := by
  induction inserting generalizing es with
  | nil =>
    obtain rfl := List.map_eq_nil_iff.mp elements.symm
    simp only [eval]
  | @insert rows e row place span' _ ih =>
    obtain ⟨ds, last, rfl, front, single⟩ := List.map_eq_append_iff.mp elements.symm
    obtain ⟨d, rfl, rfl⟩ := List.map_eq_singleton_iff.mp single
    rw [eval_insert, ih front.symm]
    simp only [eval, evalAll_append, evalAll, bind_assoc, pure_bind, Builtin.apply_insert_element]
/-- Calls that insert the entries of a table, one each, give what the literal gives. -/
theorem Expr.Inserting.eval_table {start : Span} {rows : List (List Expr)} {e : Expr}
    (inserting : Inserting (.table [] start) rows e) {es : List (Expr × Expr)}
    (entries : rows = es.map fun d => [d.1, d.2]) (span : Span) (s t : Store) (v : Value) :
    e.eval (Closure.apply depth) f s = .done v t ↔ (Expr.table es span).eval (Closure.apply depth) f s = .done v t := by
  induction inserting generalizing es v t with
  | nil =>
    obtain rfl := List.map_eq_nil_iff.mp entries.symm
    simp only [eval]
  | @insert rows e row place span' _ ih =>
    obtain ⟨ds, last, rfl, front, single⟩ := List.map_eq_append_iff.mp entries.symm
    obtain ⟨⟨k, d⟩, rfl, rfl⟩ := List.map_eq_singleton_iff.mp single
    rw [eval_insert, Eval.bind_eq_done]
    simp only [ih front.symm]
    have step (entries : Table) := @insert_entry_iff depth f entries k d span'
    simp only [eval, evalEntries_append, bind_assoc]
    rw [Eval.bind_eq_done]
    constructor
    · rintro ⟨_, u, first, rest⟩
      obtain ⟨entries, _, gives, same⟩ := Eval.bind_eq_done.mp first
      cases same
      exact ⟨entries, u, gives, (step entries u t v).mp rest⟩
    · rintro ⟨entries, u, gives, rest⟩
      exact ⟨.table entries, u, Eval.bind_eq_done.mpr ⟨entries, u, gives, rfl⟩, (step entries u t v).mpr rest⟩

/-! ### Keys that are refused -/

/-- Evaluating an entry of a table literal in `s` fails: its key does, or gives what can be no key, and
    then its value is not evaluated, or its value fails. -/
inductive Expr.EntryFails (call : Closure → List Value → Eval Value) (f : FrameId) (k d : Expr) (s : Store) :
    EvalError → Store → Prop
  | key {e : EvalError} {t : Store} : k.eval call f s = .failed e t → EntryFails call f k d s e t
  | refused {v : Value} {t : Store} : k.eval call f s = .done v t → v.isKey = false →
    EntryFails call f k d s ⟨.tableKey v.describe, k.span⟩ t
  | value {v : Value} {t u : Store} {e : EvalError} : k.eval call f s = .done v t → v.isKey = true →
    d.eval call f t = .failed e u → EntryFails call f k d s e u

/-- What an entry does is what a literal of this entry alone does. -/
theorem Expr.entryFails_iff (call : Closure → List Value → Eval Value) (table : Table) (k d : Expr) (s t : Store)
    (e : EvalError) : evalEntries call f table [(k, d)] s = .failed e t ↔ EntryFails call f k d s e t := by
  simp only [evalEntries]
  rw [Eval.bind_eq_failed]
  constructor
  · rintro (failed | ⟨key, u, gives, behind⟩)
    · exact .key failed
    split at behind
    · next hashable =>
      rcases Eval.bind_eq_failed.mp behind with failed | ⟨_, _, _, done⟩
      · exact .value gives hashable failed
      · cases done
    · next refused =>
      cases behind
      exact .refused gives (by simpa using refused)
  · rintro (failed | ⟨gives, refused⟩ | ⟨gives, hashable, failed⟩)
    · exact .inl failed
    · refine .inr ⟨_, _, gives, ?_⟩
      rw [if_neg (by simp [refused])]
      rfl
    · refine .inr ⟨_, _, gives, ?_⟩
      rw [if_pos hashable]
      exact Eval.bind_eq_failed.mpr (.inl failed)
/-- A table literal fails where one of its entries does, behind those in front of it. -/
theorem Expr.evalEntries_eq_failed (call : Closure → List Value → Eval Value) (table : Table) (es : List (Expr × Expr))
    (s t : Store) (e : EvalError) : evalEntries call f table es s = .failed e t ↔
      ∃ before k d after entries u, es = before ++ (k, d) :: after ∧
        evalEntries call f table before s = .done entries u ∧ EntryFails call f k d u e t := by
  constructor
  · intro failed
    induction es using List.reverseRecOn generalizing e t with
    | nil => cases failed
    | append_singleton es last ih =>
      obtain ⟨k, d⟩ := last
      rw [evalEntries_append, Eval.bind_eq_failed] at failed
      rcases failed with earlier | ⟨entries, u, front, here⟩
      · obtain ⟨before, k', d', after, entries, u, rfl, front, fails⟩ := ih t e earlier
        exact ⟨before, k', d', after ++ [(k, d)], entries, u, by simp, front, fails⟩
      · exact ⟨es, k, d, [], entries, u, rfl, front, (entryFails_iff call entries k d u t e).mp here⟩
  · rintro ⟨before, k, d, after, entries, u, rfl, front, fails⟩
    rw [evalEntries_append, Eval.bind_eq_failed]
    refine .inr ⟨entries, u, front, ?_⟩
    have here := (entryFails_iff call entries k d u t e).mpr fails
    rw [← List.singleton_append, evalEntries_append, Eval.bind_eq_failed]
    exact .inl here

/-! ### The main result -/

/-- Literals and the builtin that inserts agree. A list literal does what calls do that insert its elements
    one after the other. A table literal gives what calls give that insert its entries, if one of the two
    gives anything. It fails behind some of its entries, where a key fails, is refused or its value fails;
    a refused key leaves everything as the entries in front of it and the key itself have left it. -/
theorem Expr.eval_literals (depth : Nat) (f : FrameId) :
    (∀ (es : List Expr) (span start : Span) (e : Expr), Inserting (.list [] start) (es.map fun d => [d]) e →
      (Expr.list es span).eval (Closure.apply depth) f = e.eval (Closure.apply depth) f) ∧
    (∀ (es : List (Expr × Expr)) (span start : Span) (e : Expr),
      Inserting (.table [] start) (es.map fun d => [d.1, d.2]) e → ∀ s v t,
        (Expr.table es span).eval (Closure.apply depth) f s = .done v t ↔
          e.eval (Closure.apply depth) f s = .done v t) ∧
    ∀ (es : List (Expr × Expr)) (span : Span) (s : Store) (e : EvalError) (t : Store),
      (Expr.table es span).eval (Closure.apply depth) f s = .failed e t ↔
        ∃ before k d after v u, es = before ++ (k, d) :: after ∧
          (Expr.table before span).eval (Closure.apply depth) f s = .done v u ∧
            EntryFails (Closure.apply depth) f k d u e t := by
  refine ⟨fun es span start e inserting => ?_, fun es span start e inserting s v t => ?_, fun es span s e t => ?_⟩
  · exact (inserting.eval_list rfl span).symm
  · exact (inserting.eval_table rfl span s t v).symm
  · simp only [eval]
    rw [Eval.bind_eq_failed, evalEntries_eq_failed]
    constructor
    · rintro (⟨before, k, d, after, entries, u, rfl, front, fails⟩ | ⟨_, _, _, done⟩)
      · exact ⟨before, k, d, after, .table entries, u, rfl, Eval.bind_eq_done.mpr ⟨entries, u, front, rfl⟩, fails⟩
      · cases done
    · rintro ⟨before, k, d, after, v, u, rfl, front, fails⟩
      obtain ⟨entries, _, front, same⟩ := Eval.bind_eq_done.mp front
      cases same
      exact .inl ⟨before, k, d, after, entries, u, rfl, front, fails⟩

set_option maxRecDepth 100000 in
/-- A list whose elements write, and a table whose second key writes and is refused: its value is not written. -/
theorem Expr.eval_literals_write :
    let here : Span := ⟨⟨0, 0⟩, ⟨0, 0⟩⟩
    let said (w : String) : Expr := .call (.identifier ⟨Builtin.write.name, here⟩) [.string w here] here
    let into (e : Expr) (row : List Expr) : Expr := .call (.identifier ⟨Builtin.insert.name, here⟩) (e :: row) here
    let a : Expr := .string "a" here
    let s : Store := ⟨#[⟨[], none⟩], 0, #[]⟩
    (Expr.list [a, said "x"] here).eval (Closure.apply 1) 0 =
        (into (into (.list [] here) [a]) [said "x"]).eval (Closure.apply 1) 0 ∧
      (into (.table [] here) [a, said "x"]).eval (Closure.apply 1) 0 s =
        .done (.table [(.string "a", .empty)]) { s with output := #["x"] } ∧
      (Expr.table [(a, said "x"), (said "y", said "z"), (a, a)] here).eval (Closure.apply 1) 0 s =
        .failed ⟨.tableKey "empty", here⟩ { s with output := #["x", "y"] } := by
  intro here said into a s
  obtain ⟨lists, tables, fails⟩ := eval_literals 1 0
  have front : (Expr.table [(a, said "x")] here).eval (Closure.apply 1) 0 s =
      .done (.table [(.string "a", .empty)]) { s with output := #["x"] } := by cbv
  refine ⟨?_, ?_, ?_⟩
  · exact lists [a, said "x"] here here _ (.insert [said "x"] here here (.insert [a] here here .nil))
  · exact (tables [(a, said "x")] here here _ (.insert [a, said "x"] here here .nil) s _ _).mp front
  · refine (fails _ here s _ _).mpr ⟨[(a, said "x")], said "y", said "z", [(a, a)], _, _, rfl, front, ?_⟩
    exact .refused (v := .empty) (by cbv) rfl

end
end KoreanScript
