import KoreanScript.Proofs.Levels
import KoreanScript.Proofs.Reading

/-!
The parser reads what the grammar derives. The tokens of an expression of some
level, under a power below the level's floor and before tokens that follow the
level, are read as that expression, and the reader stands where it may go on
behind them. Everything else that is read ends by itself.
-/
namespace KoreanScript.Grammar
open BindingPower (ofToken ofMark ofToken_of_is)

variable {stop : Span}

theorem read_expect {m : Mark} {t : Token} (found : t.is m) (rest : List Token) :
    Read.expect stop m (t :: rest) = .ok (t, rest) := by
  rw [Read.expect_cons, if_pos found]
theorem read_parameter {t : Token} (named : t.kind = .identifier) (rest : List Token) :
    Read.parameter stop (t :: rest) = .ok (⟨t.value, t.span⟩, rest) := by
  rw [Read.parameter_cons, if_pos named]

/-- An expression goes no further than what may follow it. -/
theorem Derives.extend_stops {l : Level} {ts rest : List Token} {e r : Expr} {p : BindingPower}
    {n : Nat} (derived : Derives l ts e r) (follows : Follows n r rest) (le : n ≤ p.right) :
    Read.extend stop p e rest = .ok (e, rest) := by
  cases rest with
  | nil => exact Read.extend_nil stop p e
  | cons t rest =>
    rw [Read.extend_cons]
    rcases follows_cons.mp follows with weak | ⟨kind, apart⟩
    · rw [if_pos (by omega)]
    · have uncalled : ¬ (t.is .openGroup ∧ e.isCallable) := by
        rintro ⟨opens, callable⟩
        obtain ⟨_, rfl⟩ := derived.of_callable callable
        exact apart ⟨opens, callable⟩
      rw [if_pos kind, if_neg uncalled, ite_self]
/-- A callee and the arguments behind it are read as a call. -/
theorem extend_call {p : BindingPower} {f : Expr} {t : Token} {us rest : List Token} {es : List Expr}
    {s : Span} (callable : f.isCallable) (opens : t.is .openGroup) (below : p.right < 80)
    (arguments : Read.sequence stop .closeGroup (Parse.expression stop .lowest) us =
      .ok ((es, s), rest)) :
    Read.extend stop p f (t :: us) = Read.extend stop p (.call f es (f.span.through s)) rest := by
  have binds : ¬ (ofToken t).left ≤ p.right := by
    rw [ofToken_of_is opens]
    exact Nat.not_le.mpr below
  have kind : t.kind = .groupDelimiter := Token.kind_of_is opens
  rw [Read.extend_cons, if_neg binds, if_pos kind, if_pos ⟨opens, callable⟩, arguments]
  rfl
theorem extend_assignment {p : BindingPower} {i : Identifier} {t : Token} {us rest : List Token}
    {e : Expr} (assigns : t.is .assignment) (below : p.right < 31)
    (value : Read.expression stop .assignment us = .ok (e, rest)) :
    Read.extend stop p (.identifier i) (t :: us) =
      Read.extend stop p (.assignment i e (i.span.through e.span)) rest := by
  have binds : ¬ (ofToken t).left ≤ p.right := by
    rw [ofToken_of_is assigns]
    exact Nat.not_le.mpr below
  have kind : t.kind ≠ .groupDelimiter := by rw [Token.kind_of_is assigns]; decide
  rw [Read.extend_cons, if_neg binds, if_neg kind, if_pos assigns]
  simp only [value]
  rfl
theorem extend_infix {p : BindingPower} {op : InfixOperator} {d e : Expr} {t : Token}
    {us rest : List Token} (found : t.is (.ofInfix op)) (binds : p.right < (ofToken t).left)
    (right : Read.expression stop (ofToken t) us = .ok (e, rest)) :
    Read.extend stop p d (t :: us) =
      Read.extend stop p (.binary op d e (d.span.through e.span)) rest := by
  have kind : t.kind ≠ .groupDelimiter := by
    rw [Token.kind_of_is found]
    rintro ⟨⟩
  have other : ¬ t.is .assignment := by
    rw [Token.is_eq_false found (by cases op <;> decide)]
    decide
  have lexeme : InfixOperator.ofLexeme? t.value = some op := by
    rw [(Token.is_iff.mp found).2]
    exact InfixOperator.ofLexeme?_lexeme op
  rw [Read.extend_cons, if_neg (by omega), if_neg kind, if_neg other]
  simp only [lexeme, right]
  rfl

/-! ### Sequences -/

/-- The marks that close a sequence. -/
def Closer (m : Mark) : Prop := m = .closeGroup ∨ m = .closeList

theorem Closer.follows {m : Mark} (closer : Closer m) {t : Token} (closed : t.is m) (n : Nat) (r : Expr)
    (ts : List Token) : Follows n r (t :: ts) := by
  rcases closer with rfl | rfl
  · exact .of_is closed (Nat.zero_le n)
  · exact .of_is closed (Nat.zero_le n)
theorem Closer.not_comma {m : Mark} (closer : Closer m) {t : Token} (comma : t.is .comma) :
    t.is m = false := by
  rcases closer with rfl | rfl
  · exact Token.is_eq_false comma (by decide)
  · exact Token.is_eq_false comma (by decide)
theorem Closer.not_starts {m : Mark} (closer : Closer m) {t : Token} (first : Starts t) :
    t.is m = false := by
  rcases closer with rfl | rfl
  · exact first.is_eq_false (by decide) (by decide)
  · exact first.is_eq_false (by decide) (by decide)

section
variable {α : Type} {close : Mark} {item : (ts : List Token) → Parse.Answer α ts.length}

theorem items_last {ts rest : List Token} {a : α} {t : Token}
    (first : Parse.plain (item ts) = .ok (a, t :: rest)) (closed : t.is close) :
    Read.items stop close item ts = .ok (([a], t.span), rest) := by
  rw [Read.items_eq, first]
  show (if t.is close then _ else _) = _
  rw [if_pos closed]
theorem items_more {ts us rest : List Token} {a : α} {as : List α} {s : Span} {t : Token}
    (closer : Closer close) (first : Parse.plain (item ts) = .ok (a, t :: us)) (comma : t.is .comma)
    (tail : Read.items stop close item us = .ok ((as, s), rest)) :
    Read.items stop close item ts = .ok ((a :: as, s), rest) := by
  rw [Read.items_eq, first]
  show (if t.is close then _ else if t.is .comma then _ else _) = _
  rw [if_neg (by simp [closer.not_comma comma]), if_pos comma, tail]
  rfl
theorem sequence_none {t : Token} (closed : t.is close) (rest : List Token) :
    Read.sequence stop close item (t :: rest) = .ok (([], t.span), rest) := by
  rw [Read.sequence_cons, if_pos closed]
theorem sequence_some {t : Token} {ts rest : List Token} {as : List α} {s : Span}
    (other : t.is close = false)
    (items : Read.items stop close item (t :: ts) = .ok ((as, s), rest)) :
    Read.sequence stop close item (t :: ts) = .ok ((as, s), rest) := by
  rw [Read.sequence_cons, if_neg (by simp [other]), items]

end

theorem Names.read : ∀ {ts : List Token} {is : List Identifier} {s : Span},
    Names .closeGroup ts is s → ∀ rest,
      Read.items stop .closeGroup (Parse.parameter stop) (ts ++ rest) = .ok ((is, s), rest)
  | _, _, _, .last named closed, rest => items_last (read_parameter named (_ :: rest)) closed
  | _, _, _, .more named comma names, rest =>
    items_more (.inl rfl) (read_parameter named _) comma (names.read rest)
theorem Parameters.read {ts : List Token} {is : List Identifier} (parameters : Parameters ts is)
    (rest : List Token) : ∃ s,
      Read.sequence stop .closeGroup (Parse.parameter stop) (ts ++ rest) = .ok ((is, s), rest) := by
  cases parameters with
  | none closed => exact ⟨_, sequence_none closed rest⟩
  | @some _ _ s names =>
    refine ⟨s, ?_⟩
    have items : Read.items stop .closeGroup (Parse.parameter stop) (ts ++ rest) = .ok ((is, s), rest) :=
      names.read rest
    cases names with
    | last named _ | more named _ _ =>
      exact sequence_some (by simp [Token.is, named, Mark.closeGroup]) items

/-! ### Expressions and blocks -/

theorem read_of_start {p : BindingPower} {ts rest : List Token} {e : Expr}
    (first : Read.start stop ts = .ok (e, rest)) :
    Read.expression stop p ts = Read.extend stop p e rest := by
  rw [Read.expression_eq, first]
  rfl
/-- An expression that is read up to its end is all that is read before what follows it. -/
theorem Derives.whole {l : Level} {ts rest : List Token} {e r : Expr} {p : BindingPower}
    (derived : Derives l ts e r) (follows : Follows p.right r rest)
    (read : Read.expression stop p (ts ++ rest) = Read.extend stop p e rest) :
    Read.expression stop p (ts ++ rest) = .ok (e, rest) := by
  rw [read]
  exact derived.extend_stops follows (Nat.le_refl _)
/-- The same of a whole expression, which nothing that binds tolerates behind it. -/
theorem Derives.lowest {ts : List Token} {e r : Expr} (derived : Derives .expression ts e r)
    (rest : List Token) (read : ∀ (p : BindingPower) (rest : List Token), p.right < Level.expression.floor →
      Follows Level.expression.cap r rest →
        Read.expression stop p (ts ++ rest) = Read.extend stop p e rest)
    (follows : Follows 1 r rest) : Read.expression stop .lowest (ts ++ rest) = .ok (e, rest) :=
  derived.whole follows (read .lowest rest (by decide) (follows.mono (by decide)))
theorem start_group {t u : Token} {ts rest : List Token} {e : Expr} (opens : t.is .openGroup)
    (inner : Read.expression stop .lowest ts = .ok (e, u :: rest)) (closes : u.is .closeGroup) :
    Read.start stop (t :: ts) = .ok (e.withSpan (t.span.through u.span), rest) := by
  have kind : t.kind = .groupDelimiter := Token.kind_of_is opens
  have other : ¬ t.is .function := by simp [Token.is_eq_false opens (n := .function) (by decide)]
  rw [Read.start_cons, kind]
  simp only [Read.opened, if_neg other, if_pos opens]
  exact bind_eq_ok.mpr ⟨_, inner, bind_eq_ok.mpr ⟨_, read_expect closes rest, rfl⟩⟩
theorem start_function {t u : Token} {ts us rest : List Token} {is : List Identifier} {s : Span}
    {b : Block} (first : t.is .function) (opens : u.is .openGroup)
    (parameters : Read.sequence stop .closeGroup (Parse.parameter stop) ts = .ok ((is, s), us))
    (body : Read.block stop us = .ok (b, rest)) :
    Read.start stop (t :: u :: ts) = .ok (.function is b (t.span.through b.span), rest) := by
  have kind : t.kind = .keyword := Token.kind_of_is first
  rw [Read.start_cons, kind]
  simp only [Read.opened, if_pos first]
  exact bind_eq_ok.mpr ⟨_, read_expect opens ts,
    bind_eq_ok.mpr ⟨_, parameters, bind_eq_ok.mpr ⟨_, body, rfl⟩⟩⟩
/-- What a bracket opens is a list unless the marker of a table is behind it. -/
theorem start_bracket {t u : Token} {ts : List Token} (opens : t.is .openList) :
    Read.start stop (t :: u :: ts) = (
      if u.is .tableMarker then do
        let ((entries, last), rest) ← Read.sequence stop .closeList (Parse.entry stop) ts
        .ok (.table entries (t.span.through last), rest)
      else do
        let ((elements, last), rest) ←
          Read.sequence stop .closeList (Parse.expression stop .lowest) (u :: ts)
        .ok (.list elements (t.span.through last), rest)) := by
  have kind : t.kind = .listDelimiter := Token.kind_of_is opens
  have other : ¬ t.is .function := by simp [Token.is_eq_false opens (n := .function) (by decide)]
  have ungrouped : ¬ t.is .openGroup := by
    simp [Token.is_eq_false opens (n := .openGroup) (by decide)]
  rw [Read.start_cons, kind]
  simp only [Read.opened, if_neg other, if_neg ungrouped, if_pos opens]
theorem Target.read : ∀ {ts : List Token} {i : Identifier}, Target ts i →
    ∀ (p : BindingPower) (rest : List Token),
      Read.expression stop p (ts ++ rest) = Read.extend stop p (.identifier i) rest
  | _, _, .name kind, p, rest => by
    apply read_of_start
    rw [List.singleton_append, Read.start_cons, kind]
  | _, _, @Target.group t u ts i opens target closes, p, rest => by
    have follows : Follows 1 (.identifier i) (u :: rest) := .of_is closes (by decide)
    have inner := target.primary.whole (p := .lowest) follows (target.read .lowest (u :: rest))
    rw [List.cons_append, List.append_assoc]
    exact read_of_start (start_group opens inner closes)
theorem Items.nonempty {close : Mark} {ts : List Token} {es : List Expr} {s : Span}
    (items : Items close ts es s) : ∃ t us, ts = t :: us ∧ Starts t := by
  cases items with
  | last derived _ | more derived _ _ =>
    obtain ⟨t, us, rfl, first⟩ := derived.starts
    exact ⟨t, _, rfl, first⟩
theorem Pairs.nonempty {ts : List Token} {es : List (Expr × Expr)} {s : Span}
    (pairs : Pairs ts es s) : ∃ t us, ts = t :: us ∧ Starts t := by
  cases pairs with
  | last derived _ _ _ | more derived _ _ _ _ =>
    obtain ⟨t, us, rfl, first⟩ := derived.starts
    exact ⟨t, _, rfl, first⟩

/-- Two operands and the operator between them are read once each of them is. -/
theorem read_binary {l : Level} {op : InfixOperator} {ts us rest : List Token} {t : Token}
    {d e r : Expr} {p q : BindingPower} (power : ofMark (.ofInfix op) = q)
    (found : t.is (.ofInfix op)) (binds : p.right < q.left) (follows : Follows q.right r rest)
    (derived : Derives l us e r)
    (left : Read.expression stop p (ts ++ t :: (us ++ rest)) = Read.extend stop p d (t :: (us ++ rest)))
    (right : Read.expression stop q (us ++ rest) = Read.extend stop q e rest) :
    Read.expression stop p ((ts ++ t :: us) ++ rest) =
      Read.extend stop p (.binary op d e (d.span.through e.span)) rest := by
  obtain rfl : ofToken t = q := (ofToken_of_is found).trans power
  rw [List.append_assoc, List.cons_append, left]
  exact extend_infix found binds (derived.whole follows right)
theorem read_prefixed {l : Level} {op : PrefixOperator} {ts rest : List Token} {t : Token} {e r : Expr}
    {p : BindingPower} (found : t.is (.ofPrefix op)) (follows : Follows 71 r rest)
    (derived : Derives l ts e r)
    (inner : Read.expression stop .leading (ts ++ rest) = Read.extend stop .leading e rest) :
    Read.expression stop p (t :: (ts ++ rest)) =
      Read.extend stop p (.prefixed op e (t.span.through e.span)) rest := by
  have kind : t.kind = .operator := Token.kind_of_is found
  have lexeme : PrefixOperator.ofLexeme? t.value = some op := by
    rw [(Token.is_iff.mp found).2]
    exact PrefixOperator.ofLexeme?_lexeme op
  apply read_of_start
  rw [Read.start_cons, kind]
  simp only [lexeme]
  exact bind_eq_ok.mpr ⟨_, derived.whole follows inner, rfl⟩

theorem read_entry {ts us rest : List Token} {t : Token} {k v : Expr}
    (key : Read.expression stop .lowest (ts ++ t :: (us ++ rest)) = .ok (k, t :: (us ++ rest)))
    (colon : t.is .colon) (value : Read.expression stop .lowest (us ++ rest) = .ok (v, rest)) :
    Read.entry stop (ts ++ t :: (us ++ rest)) = .ok ((k, v), rest) := by
  rw [Read.entry_eq]
  exact bind_eq_ok.mpr ⟨_, key, bind_eq_ok.mpr ⟨_, read_expect colon _,
    bind_eq_ok.mpr ⟨_, value, rfl⟩⟩⟩

/-! ### Statements -/

/-- Whether a second block may go on with a statement. -/
def OpenBranch : Statement → Prop
  | .branch _ _ none _ => True
  | .branch _ _ (some _) _ | .giveBack _ _ | .expression _ => False

theorem OfBlock.follows {ts : List Token} {b : Block} (block : OfBlock ts b) (n : Nat) (r : Expr)
    (rest : List Token) : Follows n r (ts ++ rest) := by
  cases block with
  | mk opens _ _ => exact .of_is opens (Nat.zero_le n)

/-- Nothing at the front of `ts` belongs to the statement before it. -/
def Apart (ts : List Token) : Prop := ∀ t ∈ ts.head?, ¬ t.is .otherwise ∧ ¬ t.is .semicolon

theorem Apart.nil : Apart [] := by simp [Apart]
theorem Apart.skipSemicolon {ts : List Token} (apart : Apart ts) : Parse.skipSemicolon ts = ts := by
  cases ts with
  | nil => rfl
  | cons t ts => exact if_neg (apart t rfl).2
theorem StartsStatement.apart {t : Token} (first : StartsStatement t) (ts : List Token) :
    Apart (t :: ts) := by
  rintro u ⟨⟩
  rw [first.is_eq_false (by decide) (by decide), first.is_eq_false (by decide) (by decide)]
  decide
theorem Statements.starts {ts : List Token} {ss : List Statement} (statements : Statements ts ss) :
    ∀ t ∈ ts.head?, StartsStatement t := by
  cases statements with
  | nil => simp
  | cons closing _ _ =>
    obtain ⟨t, us, rfl, first⟩ := closing.starts
    rintro u ⟨⟩
    exact first
/-- Statements are apart from the one before them, if what ends them is. -/
theorem Statements.apart {ts rest : List Token} {ss : List Statement} (statements : Statements ts ss)
    (behind : Apart rest) : Apart (ts ++ rest) := by
  cases ts with
  | nil => exact behind
  | cons t ts => exact (statements.starts t rfl).apart (ts ++ rest)
theorem Statements.follow {ts rest : List Token} {ss : List Statement} {o : Option Expr}
    (statements : Statements ts ss) (longest : ∀ r ∈ o, ∀ t ∈ ts.head?, ¬ Continues r t)
    (behind : ∀ r, Follows 1 r rest) : ∀ r ∈ o, Follows 1 r (ts ++ rest) := by
  intro r last
  cases ts with
  | nil => exact behind r
  | cons t ts => exact (statements.starts t rfl).follows (longest r last t rfl)

/-! ### All constructs -/

mutual
/-- An expression is read up to its end, where the reader may go on. -/
theorem Derives.read : ∀ {l : Level} {ts : List Token} {e r : Expr}, Derives l ts e r →
    ∀ (p : BindingPower) (rest : List Token), p.right < l.floor → Follows l.cap r rest →
      Read.expression stop p (ts ++ rest) = Read.extend stop p e rest
  | _, _, _, _, .assign target assigns value, p, rest, below, follows => by
    rw [List.append_assoc, List.cons_append, target.read]
    exact extend_assignment assigns below
      (value.whole (p := .assignment) follows (value.read .assignment rest (by decide) follows))
  | _, _, _, _, .ofComparison h, p, rest, below, follows =>
    h.read p rest (Nat.lt_trans below (by decide)) (follows.mono (by decide))
  | _, _, _, _, .compare left member found right, p, rest, below, follows =>
    read_binary (q := .comparison) (BindingPower.ofMark_comparison member) found below follows right
      (left.read p _ (Nat.lt_trans below (by decide))
        (.of_is found (by rw [BindingPower.ofMark_comparison member]; decide)))
      (right.read .comparison rest (by decide) follows)
  | _, _, _, _, .ofSum h, p, rest, below, follows =>
    h.read p rest (Nat.lt_trans below (by decide)) (follows.mono (by decide))
  | _, _, _, _, .add left member found right, p, rest, below, follows =>
    read_binary (q := .summative) (BindingPower.ofMark_summative member) found below follows right
      (left.read p _ below (.of_is found (by rw [BindingPower.ofMark_summative member]; decide)))
      (right.read .summative rest (by decide) (follows.mono (by decide)))
  | _, _, _, _, .ofProduct h, p, rest, below, follows =>
    h.read p rest (Nat.lt_trans below (by decide)) (follows.mono (by decide))
  | _, _, _, _, .multiply left member found right, p, rest, below, follows =>
    read_binary (q := .productive) (BindingPower.ofMark_productive member) found below follows right
      (left.read p _ below (.of_is found (by rw [BindingPower.ofMark_productive member]; decide)))
      (right.read .productive rest (by decide) (follows.mono (by decide)))
  | _, _, _, _, .ofPrefixed h, p, rest, below, follows =>
    h.read p rest (Nat.lt_trans below (by decide)) (follows.mono (by decide))
  | _, _, _, _, .lead found h, p, rest, _, follows =>
    read_prefixed found follows h (h.read .leading rest (by decide) follows)
  | _, _, _, _, .ofCall h, p, rest, below, follows =>
    h.read p rest below (follows.mono (by decide))
  | _, _, _, _, .call f callable opens arguments, p, rest, below, _ => by
    rw [List.append_assoc, List.cons_append, f.read p _ below (.of_call_le (Nat.le_refl _) _ _)]
    exact extend_call callable opens below (arguments.read (.inl rfl) rest)
  | _, _, _, _, .ofPrimary h, p, rest, below, follows => h.read p rest below follows
  | _, _, _, _, .number kind value, p, rest, _, _ => by
    apply read_of_start
    rw [List.singleton_append, Read.start_cons, kind]
    simp only [value]
  | _, _, _, _, .boolean kind value, p, rest, _, _ => by
    apply read_of_start
    rw [List.singleton_append, Read.start_cons, kind]
    simp only [value, Word.toBool?_ofBool]
  | _, _, _, _, .string kind, p, rest, _, _ => by
    apply read_of_start
    rw [List.singleton_append, Read.start_cons, kind]
  | _, _, _, _, .identifier kind, p, rest, _, _ => by
    apply read_of_start
    rw [List.singleton_append, Read.start_cons, kind]
  | _, _, _, _, .group (u := u) (r := r) opens h closes, p, rest, _, _ => by
    have inner := h.lowest (u :: rest) h.read (.of_is closes (by decide))
    rw [List.cons_append, List.append_assoc]
    exact read_of_start (start_group opens inner closes)
  | _, _, _, _, @Derives.function ts us t u is b first opens parameters body, p, rest, _, _ => by
    obtain ⟨s, names⟩ : ∃ s, Read.sequence stop .closeGroup (Parse.parameter stop) (ts ++ (us ++ rest)) =
      .ok ((is, s), us ++ rest) := parameters.read (us ++ rest)
    rw [List.cons_append, List.cons_append, List.append_assoc]
    exact read_of_start (start_function first opens names (body.read rest))
  | _, _, _, _, .list opens elements, p, rest, _, _ => by
    apply read_of_start
    have inner := elements.read (.inr rfl) rest
    cases elements with
    | @none _ t closed =>
      have unmarked : ¬ t.is .tableMarker := by
        simp [Token.is_eq_false closed (n := .tableMarker) (by decide)]
      rw [List.cons_append, List.singleton_append, start_bracket opens, if_neg unmarked]
      exact bind_eq_ok.mpr ⟨_, inner, rfl⟩
    | some items =>
      obtain ⟨t, us, rfl, first⟩ := items.nonempty
      have unmarked : ¬ t.is .tableMarker := by
        simp [first.is_eq_false (m := .tableMarker) (by decide) (by decide)]
      rw [List.cons_append, List.cons_append, start_bracket opens, if_neg unmarked]
      exact bind_eq_ok.mpr ⟨_, inner, rfl⟩
  | _, _, _, _, .table opens marked entries, p, rest, _, _ => by
    apply read_of_start
    rw [List.cons_append, List.cons_append, start_bracket opens, if_pos marked]
    exact bind_eq_ok.mpr ⟨_, entries.read rest, rfl⟩
theorem Elements.read : ∀ {close : Mark} {ts : List Token} {es : List Expr} {s : Span},
    Elements close ts es s → Closer close → ∀ rest,
      Read.sequence stop close (Parse.expression stop .lowest) (ts ++ rest) = .ok ((es, s), rest)
  | _, _, _, _, .none closed, _, rest => sequence_none closed rest
  | _, _, _, _, .some items, closer, rest => by
    have read := items.read closer rest
    obtain ⟨t, us, rfl, first⟩ := items.nonempty
    exact sequence_some (closer.not_starts first) read
theorem Items.read : ∀ {close : Mark} {ts : List Token} {es : List Expr} {s : Span},
    Items close ts es s → Closer close → ∀ rest,
      Read.items stop close (Parse.expression stop .lowest) (ts ++ rest) = .ok ((es, s), rest)
  | _, _, _, _, .last h closed, closer, rest => by
    rw [List.append_assoc, List.singleton_append]
    exact items_last (h.lowest _ h.read (closer.follows closed _ _ _)) closed
  | _, _, _, _, .more h comma items, closer, rest => by
    rw [List.append_assoc, List.cons_append]
    exact items_more closer (h.lowest _ h.read (.of_is comma (by decide))) comma (items.read closer rest)
theorem Entries.read : ∀ {ts : List Token} {es : List (Expr × Expr)} {s : Span},
    Entries ts es s → ∀ rest,
      Read.sequence stop .closeList (Parse.entry stop) (ts ++ rest) = .ok ((es, s), rest)
  | _, _, _, .none closed, rest => sequence_none closed rest
  | _, _, _, .some pairs, rest => by
    have read := pairs.read rest
    obtain ⟨t, us, rfl, first⟩ := pairs.nonempty
    exact sequence_some (Closer.not_starts (.inr rfl) first) read
theorem Pairs.read : ∀ {ts : List Token} {es : List (Expr × Expr)} {s : Span},
    Pairs ts es s → ∀ rest,
      Read.items stop .closeList (Parse.entry stop) (ts ++ rest) = .ok ((es, s), rest)
  | _, _, _, .last k colon v closed, rest => by
    rw [List.append_assoc, List.cons_append, List.append_assoc, List.singleton_append]
    exact items_last (read_entry (k.lowest _ k.read (.of_is colon (by decide))) colon
      (v.lowest _ v.read (.of_is closed (by decide)))) closed
  | _, _, _, .more k colon v comma pairs, rest => by
    rw [List.append_assoc, List.cons_append, List.append_assoc, List.cons_append]
    exact items_more (.inr rfl) (read_entry (k.lowest _ k.read (.of_is colon (by decide))) colon
      (v.lowest _ v.read (.of_is comma (by decide)))) comma (pairs.read rest)
theorem OfBlock.read : ∀ {ts : List Token} {b : Block}, OfBlock ts b → ∀ rest,
    Read.block stop (ts ++ rest) = .ok (b, rest)
  | _, _, .mk opens statements closes, rest => by
    rw [Read.block_eq, List.cons_append, List.append_assoc]
    exact bind_eq_ok.mpr ⟨_, read_expect opens _,
      bind_eq_ok.mpr ⟨_, statements.read rest closes, rfl⟩⟩
theorem Bare.read : ∀ {ts : List Token} {s : Statement} {o : Option Expr}, Bare ts s o → ∀ rest,
    (∀ r ∈ o, Follows 1 r rest) → (OpenBranch s → ∀ t ∈ rest.head?, ¬ t.is .otherwise) →
      Read.bareStatement stop (ts ++ rest) = .ok (s, rest)
  | _, _, _, .branch first predicate consequence, rest, _, apart => by
    have test := predicate.lowest _ predicate.read (consequence.follows 1 _ rest)
    rw [List.cons_append, List.append_assoc, Read.bareStatement_cons, if_pos first]
    refine bind_eq_ok.mpr ⟨_, test, bind_eq_ok.mpr ⟨_, consequence.read rest, ?_⟩⟩
    cases rest with
    | nil => rfl
    | cons u rest => exact if_neg (apart trivial u rfl)
  | _, _, _, .branchElse first predicate consequence other alternative, rest, _, _ => by
    simp only [List.cons_append, List.append_assoc]
    rw [Read.bareStatement_cons, if_pos first]
    refine bind_eq_ok.mpr ⟨_, predicate.lowest _ predicate.read (consequence.follows 1 _ _), ?_⟩
    refine bind_eq_ok.mpr ⟨_, consequence.read _, ?_⟩
    exact (if_pos other).trans (bind_eq_ok.mpr ⟨_, alternative.read rest, rfl⟩)
  | _, _, _, .giveBack (t := t) first h, rest, follows, _ => by
    have other : ¬ t.is .branch := by
      simp [Token.is_eq_false first (n := .branch) (by decide)]
    have value := h.lowest _ h.read (follows _ rfl)
    rw [List.cons_append, Read.bareStatement_cons, if_neg other, if_pos first]
    exact bind_eq_ok.mpr ⟨_, value, rfl⟩
  | _, _, _, .expression h, rest, follows, _ => by
    have value := h.lowest _ h.read (follows _ rfl)
    obtain ⟨t, us, rfl, first⟩ := h.starts
    have none : ∀ {m : Mark}, m ∈ [Mark.branch, .giveBack, .otherwise] → ¬ t.is m := by
      intro m member
      rw [first.is_eq_false (by revert m; decide) (by revert m; decide)]
      decide
    rw [List.cons_append, Read.bareStatement_cons, if_neg (none (by simp)), if_neg (none (by simp)),
      if_neg (none (by simp))]
    exact bind_eq_ok.mpr ⟨_, value, rfl⟩
theorem Closing.read : ∀ {ts : List Token} {s : Statement} {o : Option Expr}, Closing ts s o → ∀ rest,
    (∀ r ∈ o, Follows 1 r rest) → Apart rest → Read.statement stop (ts ++ rest) = .ok (s, rest)
  | _, _, _, .closed bare semicolon, rest, _, _ => by
    rw [Read.statement_eq, List.append_assoc, List.singleton_append]
    refine bind_eq_ok.mpr ⟨_, bare.read _ (fun r _ => .of_is semicolon (by decide)) ?_, ?_⟩
    · rintro _ t ⟨⟩
      simp [Token.is_eq_false semicolon (n := .otherwise) (by decide)]
    · simp [Parse.skipSemicolon, semicolon]
  | _, _, _, .bare bare, rest, follows, apart => by
    rw [Read.statement_eq]
    refine bind_eq_ok.mpr ⟨_, bare.read rest follows fun _ t front => (apart t front).1, ?_⟩
    simp only [apart.skipSemicolon]
theorem Statements.read : ∀ {ts : List Token} {ss : List Statement}, Statements ts ss →
    ∀ {t : Token} (rest : List Token), t.is .closeBlock →
      Read.blockTail stop (ts ++ t :: rest) = .ok ((ss, t.span), rest)
  | _, _, .nil, t, rest, closes => by
    rw [List.nil_append, Read.blockTail_cons, if_pos closes]
  | _, _, .cons closing statements longest, t, rest, closes => by
    have apart : Apart (t :: rest) := by
      rintro u ⟨⟩
      rw [Token.is_eq_false closes (by decide), Token.is_eq_false closes (by decide)]
      decide
    have head := closing.read _ (statements.follow longest fun r => .of_is closes (by decide))
      (statements.apart apart)
    obtain ⟨u, us, rfl, first⟩ := closing.starts
    have unclosed : ¬ u.is .closeBlock := by
      simp [first.is_eq_false (m := .closeBlock) (by decide) (by decide)]
    rw [List.append_assoc, List.cons_append, Read.blockTail_cons, if_neg unclosed,
      if_neg first.kind_ne_finish]
    exact bind_eq_ok.mpr ⟨_, head, bind_eq_ok.mpr ⟨_, statements.read rest closes, rfl⟩⟩
end

/-! ### Programs -/

theorem Statements.read_all : ∀ {ts : List Token} {ss : List Statement}, Statements ts ss →
    Parse.statements stop ts = .ok (ss, stop)
  | _, _, .nil => Read.statements_nil stop
  | _, _, @Statements.cons ts us s o ss closing statements longest => by
    have apart := statements.apart .nil
    have follow := statements.follow longest fun r => .nil 1 r
    rw [List.append_nil] at apart follow
    have head : Read.statement stop (ts ++ us) = .ok (s, us) := closing.read us follow apart
    obtain ⟨u, vs, rfl, first⟩ := closing.starts
    rw [List.cons_append, Read.statements_cons, if_neg first.kind_ne_finish]
    exact bind_eq_ok.mpr ⟨_, head, bind_eq_ok.mpr ⟨_, statements.read_all, rfl⟩⟩

end KoreanScript.Grammar
