import Mathlib.Data.List.Chain
import KoreanScript.Proofs.Recognition

/-!
How far the parser goes. Whatever is read takes at least one token, so every round
of a loop of the parser does, and no loop goes round more often than there are
tokens. Nothing goes beyond an end token: one inside a list is to every reader what
the end of the list is, and the tokens behind it never count.
-/
namespace KoreanScript

namespace Parse

/-- What reads an `α` off the front of tokens, with an end token at a span behind them. -/
abbrev FrontReader (α : Type) := Span → List Token → Except ParseError (α × List Token)

/-- Whether a reader stays in front of end tokens: what it takes holds none, and where it comes
    to one it answers, be it an error, as at the end of a list, whatever stands behind. -/
structure Stops {α : Type} (read : FrontReader α) : Prop where
  front {stop : Span} {ts rest : List Token} {a : α} :
    read stop ts = .ok (a, rest) → ∃ used, (∀ t ∈ used, t.kind ≠ .finish) ∧ ts = used ++ rest
  beyond {fin : Token} (stop : Span) (ts after : List Token) : fin.kind = .finish →
    read stop (ts ++ fin :: after) = (read fin.span ts).map fun (a, rest) => (a, rest ++ fin :: after)
/-- Whether a reader stays in front of end tokens and takes at least one token for all that
    it gives. -/
structure Advances {α : Type} (read : FrontReader α) : Prop extends Stops read where
  progress {stop : Span} {ts rest : List Token} {a : α} :
    read stop ts = .ok (a, rest) → rest.length < ts.length

/-! ### Answers in front of an end token -/

/-- Answers to the tokens `ts` with `tail` behind them and without it: one error, or one
    result, with `tail` behind what it leaves of `ts`. -/
inductive UpTo {α : Type} (tail ts : List Token) :
    Except ParseError (α × List Token) → Except ParseError (α × List Token) → Prop
  | ok (a : α) {rest : List Token} : rest <:+ ts → UpTo tail ts (.ok (a, rest ++ tail)) (.ok (a, rest))
  | error (e : ParseError) : UpTo tail ts (.error e) (.error e)

section
variable {α β : Type} {tail ts us : List Token} {x y : Except ParseError (α × List Token)}

theorem UpTo.mono (upTo : UpTo tail us x y) (behind : us <:+ ts) : UpTo tail ts x y := by
  cases upTo with
  | ok a rest => exact .ok a (rest.trans behind)
  | error e => exact .error e
/-- Reading nothing more. -/
theorem UpTo.here (a : α) (ts : List Token) : UpTo tail ts (.ok (a, ts ++ tail)) (.ok (a, ts)) :=
  .ok a (List.suffix_refl ts)
/-- Reading on behind a token. -/
theorem UpTo.past (t : Token) (upTo : UpTo tail ts x y) : UpTo tail (t :: ts) x y :=
  upTo.mono (List.suffix_cons t ts)
/-- Reading one thing after the other. -/
theorem UpTo.andThen {f g : α × List Token → Except ParseError (β × List Token)} (first : UpTo tail ts x y)
    (rest : ∀ a us, y = .ok (a, us) → UpTo tail us (f (a, us ++ tail)) (g (a, us))) :
    UpTo tail ts (x >>= f) (y >>= g) := by
  cases first with
  | ok a behind => exact (rest a _ rfl).mono behind
  | error e => exact .error e
theorem UpTo.eq_map (upTo : UpTo tail ts x y) : x = y.map fun (a, rest) => (a, rest ++ tail) := by
  cases upTo with
  | ok a _ => rfl
  | error e => rfl
theorem UpTo.suffix {a : α} {rest : List Token} (upTo : UpTo tail ts x y) (read : y = .ok (a, rest)) : rest <:+ ts := by
  subst read
  cases upTo with
  | ok _ behind => exact behind

end

/-- A list holds no end token, or a first one. -/
theorem cut_finish (ts : List Token) : (∀ t ∈ ts, t.kind ≠ .finish) ∨
    ∃ before fin after, (∀ t ∈ before, t.kind ≠ .finish) ∧ fin.kind = .finish ∧ ts = before ++ fin :: after := by
  induction ts with
  | nil => exact .inl fun t member => absurd member List.not_mem_nil
  | cons t ts ih =>
    by_cases ends : t.kind = .finish
    · exact .inr ⟨[], t, ts, by simp, ends, rfl⟩
    · rcases ih with none | ⟨before, fin, after, none, kind, rfl⟩
      · exact .inl (List.forall_mem_cons.mpr ⟨ends, none⟩)
      · exact .inr ⟨t :: before, fin, after, List.forall_mem_cons.mpr ⟨ends, none⟩, kind, rfl⟩

/-- To stay in front of end tokens is to answer up to any of them. -/
theorem Stops.of_upTo {α : Type} {read : FrontReader α}
    (upTo : ∀ stop fin after ts, fin.kind = .finish →
      UpTo (fin :: after) ts (read stop (ts ++ fin :: after)) (read fin.span ts)) : Stops read where
  front {stop ts rest a} taken := by
    rcases cut_finish ts with none | ⟨before, fin, after, none, ends, rfl⟩
    · -- The end of the list is an end token at `stop`.
      obtain ⟨used, rfl⟩ := (upTo stop (.finish stop) [] ts rfl).suffix taken
      exact ⟨used, fun t member => none t (List.mem_append_left _ member), rfl⟩
    · have same := upTo stop fin after before ends
      rw [taken] at same
      generalize read fin.span before = y at same
      cases same with
      | ok _ behind =>
        obtain ⟨used, rfl⟩ := behind
        exact ⟨used, fun t member => none t (List.mem_append_left _ member), List.append_assoc ..⟩
  beyond stop ts after ends := (upTo stop _ after ts ends).eq_map

end Parse

namespace Read
open Parse (Answer UpTo plain)

section
variable {stop : Span} {fin : Token} (ends : fin.kind = .finish) {after : List Token}
include ends

theorem is_finish (m : Mark) (usual : m.kind ≠ .finish) : fin.is m = false := by
  simp [Token.is, ends, usual.symm]
theorem ofDelimiter_finish (m : Mark) : ParseError.ofDelimiter (.finish fin.span) m = .ofDelimiter fin m := by
  simp only [ParseError.ofDelimiter, ParseError.missing, Token.display, Token.finish, ends]
  rfl
theorem start_finish : start stop (fin :: after) = .error ⟨.expression .finish, fin.span⟩ := by
  rw [start_cons, ends]
  simp only [opened, is_finish ends .function (by decide), is_finish ends .openGroup (by decide),
    is_finish ends .openList (by decide), Bool.false_eq_true, if_false, ends]
theorem expression_finish (p : BindingPower) :
    expression stop p (fin :: after) = .error ⟨.expression .finish, fin.span⟩ := by
  rw [expression_eq, start_finish ends]
  rfl

theorem expect_upTo {m : Mark} (usual : m.kind ≠ .finish) (ts : List Token) :
    UpTo (fin :: after) ts (expect stop m (ts ++ fin :: after)) (expect fin.span m ts) := by
  cases ts with
  | nil =>
    rw [List.nil_append, expect_cons, is_finish ends _ usual, expect_nil, ofDelimiter_finish ends]
    exact .error _
  | cons t ts =>
    rw [List.cons_append, expect_cons, expect_cons]
    split
    · exact .past t (.here t ts)
    · exact .error _
theorem parameter_upTo (ts : List Token) :
    UpTo (fin :: after) ts (parameter stop (ts ++ fin :: after)) (parameter fin.span ts) := by
  cases ts with
  | nil =>
    rw [List.nil_append, parameter_cons, ends, parameter_nil]
    simp only [reduceCtorEq, if_false, Token.display, ends, Token.finish, if_true]
    exact .error _
  | cons t ts =>
    rw [List.cons_append, parameter_cons, parameter_cons]
    split
    · exact .past t (.here _ ts)
    · exact .error _

/-! ### Sequences -/

section
variable {α : Type} {n : Nat} {item item' : (ts : List Token) → Answer α ts.length}
  (upTo : ∀ ts, ts.length < n → UpTo (fin :: after) ts (plain (item (ts ++ fin :: after))) (plain (item' ts)))
  {close : Mark} (usual : close.kind ≠ .finish)
include upTo usual

/-- Items and the span of their closing mark, by readers that answer up to the end token
    wherever it has fewer than `n` tokens in front of it. -/
theorem items_upTo {ts : List Token} (bound : ts.length < n) :
    UpTo (fin :: after) ts (items stop close item (ts ++ fin :: after)) (items fin.span close item' ts) := by
  induction size : ts.length using Nat.strongRecOn generalizing ts with
  | _ m ih =>
    subst size
    rw [items_eq, items_eq]
    refine (upTo ts bound).andThen fun a us read => ?_
    have shorter := Parse.length_of_plain read
    cases us with
    | nil =>
      simp only [List.nil_append, is_finish ends _ usual, is_finish ends .comma (by decide), Bool.false_eq_true,
        if_false, ofDelimiter_finish ends]
      exact .error _
    | cons t us =>
      simp only [List.length_cons] at shorter
      simp only [List.cons_append]
      split
      · exact .past t (.here _ us)
      split
      · refine .past t ?_
        exact (ih _ (by omega) (by omega) rfl).andThen fun x vs _ => .here _ vs
      · exact .error _
theorem sequence_upTo {ts : List Token} (bound : ts.length < n) :
    UpTo (fin :: after) ts (sequence stop close item (ts ++ fin :: after)) (sequence fin.span close item' ts) := by
  have items : UpTo (fin :: after) ts (items stop close item (ts ++ fin :: after)) (items fin.span close item' ts) :=
    items_upTo ends upTo usual bound
  cases ts with
  | nil =>
    rw [List.nil_append, sequence_cons, is_finish ends _ usual, sequence_nil]
    exact items
  | cons t ts =>
    rw [List.cons_append, sequence_cons, sequence_cons]
    split
    · exact .past t (.here _ ts)
    · exact items

end

end

theorem parameters_upTo {stop : Span} {fin : Token} (ends : fin.kind = .finish) {after : List Token} (ts : List Token) :
    UpTo (fin :: after) ts (sequence stop .closeGroup (Parse.parameter stop) (ts ++ fin :: after))
      (sequence fin.span .closeGroup (Parse.parameter fin.span) ts) :=
  sequence_upTo ends (fun us _ => parameter_upTo ends us) (by decide) (Nat.lt_succ_self ts.length)

/-! ### Expressions

Everything below is shown under the hypothesis that readers answer up to the end token
where fewer tokens stand in front of it. -/

/-- Whether expressions and blocks are read up to the end token `fin`, where fewer than `n`
    tokens stand in front of it. -/
def UpToBelow (stop : Span) (fin : Token) (after : List Token) (n : Nat) : Prop :=
  ∀ ts, ts.length < n →
    (∀ p, UpTo (fin :: after) ts (expression stop p (ts ++ fin :: after)) (expression fin.span p ts)) ∧
      UpTo (fin :: after) ts (block stop (ts ++ fin :: after)) (block fin.span ts)

theorem elements_nil (stop : Span) (close : Mark) :
    sequence stop close (Parse.expression stop .lowest) [] = .error ⟨.expression .finish, stop⟩ := by
  rw [sequence_nil, items_eq]
  change expression stop .lowest [] >>= _ = _
  rw [expression_eq, start_nil]
  rfl

section
variable {stop : Span} {fin : Token} (ends : fin.kind = .finish) {after : List Token} {n : Nat}
  (below : UpToBelow stop fin after n)
include ends below

theorem elements_upTo {close : Mark} (usual : close.kind ≠ .finish) {ts : List Token} (bound : ts.length < n) :
    UpTo (fin :: after) ts (sequence stop close (Parse.expression stop .lowest) (ts ++ fin :: after))
      (sequence fin.span close (Parse.expression fin.span .lowest) ts) :=
  sequence_upTo ends (fun us less => (below us less).1 .lowest) usual bound
theorem entry_upTo {ts : List Token} (bound : ts.length < n) :
    UpTo (fin :: after) ts (entry stop (ts ++ fin :: after)) (entry fin.span ts) := by
  rw [entry_eq, entry_eq]
  refine ((below ts bound).1 .lowest).andThen fun key us read => ?_
  have shorter := Parse.length_of_plain read
  refine (expect_upTo ends (by decide) us).andThen fun colon vs read => ?_
  have shorter' := Parse.length_of_plain read
  exact ((below vs (by omega)).1 .lowest).andThen fun value ws _ => .here _ ws
theorem entries_upTo {ts : List Token} (bound : ts.length < n) :
    UpTo (fin :: after) ts (sequence stop .closeList (Parse.entry stop) (ts ++ fin :: after))
      (sequence fin.span .closeList (Parse.entry fin.span) ts) :=
  sequence_upTo ends (fun _ less => entry_upTo ends below less) (by decide) bound
theorem opened_upTo (t : Token) {ts : List Token} (bound : ts.length < n) :
    UpTo (fin :: after) ts (opened stop t (ts ++ fin :: after)) (opened fin.span t ts) := by
  unfold opened
  split
  · refine (expect_upTo ends (by decide) ts).andThen fun first us read => ?_
    have shorter := Parse.length_of_plain read
    refine (parameters_upTo ends us).andThen fun parameters vs read => ?_
    have shorter' := Parse.length_of_plain read
    exact (below vs (by omega)).2.andThen fun body ws _ => .here _ ws
  split
  · refine ((below ts bound).1 .lowest).andThen fun e us _ => ?_
    exact (expect_upTo ends (by decide) us).andThen fun last vs _ => .here _ vs
  split
  · cases ts with
    | nil =>
      -- An end token makes no table and begins no element.
      have none := (elements_upTo ends below (show Mark.closeList.kind ≠ .finish by decide) bound).eq_map
      rw [List.nil_append, elements_nil] at none
      simp only [List.nil_append, is_finish ends .tableMarker (by decide), Bool.false_eq_true, if_false, none]
      exact .error _
    | cons u us =>
      simp only [List.length_cons] at bound
      simp only [List.cons_append]
      split
      · refine .past u ?_
        exact (entries_upTo ends below (by omega)).andThen fun entries vs _ => .here _ vs
      · rw [← List.cons_append]
        exact (elements_upTo ends below (by decide) (by simpa using bound)).andThen
          fun elements vs _ => .here _ vs
  · exact .error _
theorem start_upTo {ts : List Token} (bound : ts.length < n + 1) :
    UpTo (fin :: after) ts (start stop (ts ++ fin :: after)) (start fin.span ts) := by
  cases ts with
  | nil =>
    rw [List.nil_append, start_finish ends, start_nil]
    exact .error _
  | cons t ts =>
    simp only [List.length_cons, Nat.add_lt_add_iff_right] at bound
    rw [List.cons_append, start_cons, start_cons]
    split
    · split
      · exact .past t (.here _ ts)
      · exact .error _
    · split
      · exact .past t (.here _ ts)
      · exact .error _
    · exact .past t (.here _ ts)
    · exact .past t (.here _ ts)
    · split
      · exact .error _
      · refine .past t ?_
        exact ((below ts bound).1 .leading).andThen fun e us _ => .here _ us
    · exact (opened_upTo ends below t bound).past t
theorem extend_upTo (p : BindingPower) (e : Expr) {ts : List Token} (bound : ts.length < n + 1) :
    UpTo (fin :: after) ts (extend stop p e (ts ++ fin :: after)) (extend fin.span p e ts) := by
  induction size : ts.length using Nat.strongRecOn generalizing ts e with
  | _ m ih =>
    subst size
    cases ts with
    | nil =>
      -- An end token binds nothing, so the expression is left as it is.
      have weakest : (BindingPower.ofToken fin).left ≤ p.right := by
        simp [BindingPower.ofToken, ends, BindingPower.lowest]
      rw [List.nil_append, extend_cons, if_pos weakest, extend_nil]
      exact .here e []
    | cons t ts =>
      simp only [List.length_cons, Nat.add_lt_add_iff_right] at bound ih
      rw [List.cons_append, extend_cons, extend_cons]
      split
      · exact .here e _
      split
      · split
        · refine .past t ?_
          refine (elements_upTo ends below (by decide) bound).andThen fun arguments us read => ?_
          have shorter := Parse.length_of_plain read
          exact ih _ (by omega) _ (by omega) rfl
        · exact .here e _
      split
      · cases e with
        | identifier i =>
          refine .past t ?_
          refine ((below ts bound).1 .assignment).andThen fun value us read => ?_
          have shorter := Parse.length_of_plain read
          exact ih _ (by omega) _ (by omega) rfl
        | _ => exact .error _
      · split
        · exact .error _
        · refine .past t ?_
          refine ((below ts bound).1 _).andThen fun right us read => ?_
          have shorter := Parse.length_of_plain read
          exact ih _ (by omega) _ (by omega) rfl
theorem expression_upTo (p : BindingPower) {ts : List Token} (bound : ts.length < n + 1) :
    UpTo (fin :: after) ts (expression stop p (ts ++ fin :: after)) (expression fin.span p ts) := by
  rw [expression_eq, expression_eq]
  refine (start_upTo ends below bound).andThen fun e us read => ?_
  have shorter := Parse.length_of_plain read
  exact extend_upTo ends below p e (by omega)

/-! ### Statements -/

theorem bareStatement_upTo {ts : List Token} (bound : ts.length < n + 1) :
    UpTo (fin :: after) ts (bareStatement stop (ts ++ fin :: after)) (bareStatement fin.span ts) := by
  cases ts with
  | nil =>
    -- An end token begins no statement but an expression, which is refused there.
    simp only [List.nil_append, bareStatement_cons, is_finish ends .branch (by decide),
      is_finish ends .giveBack (by decide), is_finish ends .otherwise (by decide), Bool.false_eq_true,
      if_false, expression_finish ends, bareStatement_nil]
    exact .error _
  | cons t ts =>
    have smaller : ts.length < n := by simpa using bound
    rw [List.cons_append, bareStatement_cons, bareStatement_cons]
    split
    · refine .past t ?_
      refine ((below ts smaller).1 .lowest).andThen fun predicate us read => ?_
      have shorter := Parse.length_of_plain read
      refine (below us (by omega)).2.andThen fun consequence vs read => ?_
      have shorter' := Parse.length_of_plain read
      cases vs with
      | nil =>
        simp only [List.nil_append, is_finish ends .otherwise (by decide), Bool.false_eq_true, if_false]
        exact .here _ []
      | cons u vs =>
        simp only [List.length_cons] at shorter'
        simp only [List.cons_append]
        split
        · refine .past u ?_
          exact (below vs (by omega)).2.andThen fun alternative ws _ => .here _ ws
        · exact .here _ (u :: vs)
    split
    · refine .past t ?_
      exact ((below ts smaller).1 .lowest).andThen fun e us _ => .here _ us
    split
    · exact .error _
    · rw [← List.cons_append]
      exact (expression_upTo ends below .lowest bound).andThen fun e us _ => .here _ us
theorem statement_upTo {ts : List Token} (bound : ts.length < n + 1) :
    UpTo (fin :: after) ts (statement stop (ts ++ fin :: after)) (statement fin.span ts) := by
  rw [statement_eq, statement_eq]
  refine (bareStatement_upTo ends below bound).andThen fun s us _ => ?_
  cases us with
  | nil =>
    simp only [List.nil_append, Parse.skipSemicolon, is_finish ends .semicolon (by decide), Bool.false_eq_true,
      if_false]
    exact .here s []
  | cons t us =>
    simp only [List.cons_append, Parse.skipSemicolon]
    split
    · exact .past t (.here s us)
    · exact .here s (t :: us)
theorem blockTail_upTo {ts : List Token} (bound : ts.length < n + 1) :
    UpTo (fin :: after) ts (blockTail stop (ts ++ fin :: after)) (blockTail fin.span ts) := by
  induction size : ts.length using Nat.strongRecOn generalizing ts with
  | _ m ih =>
    subst size
    cases ts with
    | nil =>
      rw [List.nil_append, blockTail_cons, is_finish ends _ (by decide), if_neg Bool.false_ne_true, if_pos ends,
        blockTail_nil, ofDelimiter_finish ends]
      exact .error _
    | cons t ts =>
      rw [List.cons_append, blockTail_cons, blockTail_cons]
      split
      · exact .past t (.here _ ts)
      split
      · exact .error _
      · rw [← List.cons_append]
        refine (statement_upTo ends below bound).andThen fun s us read => ?_
        have shorter := Parse.length_of_plain read
        exact (ih _ shorter (by omega) rfl).andThen fun tail vs _ => .here _ vs
theorem block_upTo {ts : List Token} (bound : ts.length < n + 1) :
    UpTo (fin :: after) ts (block stop (ts ++ fin :: after)) (block fin.span ts) := by
  rw [block_eq, block_eq]
  refine (expect_upTo ends (by decide) ts).andThen fun first us read => ?_
  have shorter := Parse.length_of_plain read
  exact (blockTail_upTo ends below (by omega)).andThen fun tail vs _ => .here _ vs

end

/-- Whatever stands in front of the end token is read up to it. -/
theorem upToBelow {fin : Token} (ends : fin.kind = .finish) (stop : Span) (after : List Token) (n : Nat) :
    UpToBelow stop fin after n := by
  induction n with
  | zero => exact fun _ none => absurd none (Nat.not_lt_zero _)
  | succ n below => exact fun ts bound => ⟨fun p => expression_upTo ends below p bound, block_upTo ends below bound⟩

end Read

namespace Parse

/-! ### Progress -/

theorem Advances.of_upTo {α : Type} {read : FrontReader α}
    (upTo : ∀ stop fin after ts, fin.kind = .finish → (∀ n, Read.UpToBelow stop fin after n) →
      UpTo (fin :: after) ts (read stop (ts ++ fin :: after)) (read fin.span ts))
    (progress : ∀ {stop ts rest a}, read stop ts = .ok (a, rest) → rest.length < ts.length) : Advances read where
  toStops := .of_upTo fun stop fin after ts ends => upTo stop fin after ts ends (Read.upToBelow ends stop after)
  progress := progress

/-- Whether every reader stays in front of end tokens and takes a token for what it gives,
    except that an expression may go on by nothing. -/
structure Progress : Prop where
  expect {m : Mark} : m.kind ≠ .finish → Advances fun stop => Read.expect stop m
  parameter : Advances Read.parameter
  parameters : Advances fun stop => Read.sequence stop .closeGroup (Parse.parameter stop)
  elements {close : Mark} : close.kind ≠ .finish →
    Advances fun stop => Read.sequence stop close (Parse.expression stop .lowest)
  entry : Advances Read.entry
  entries : Advances fun stop => Read.sequence stop .closeList (Parse.entry stop)
  start : Advances Read.start
  extend (p : BindingPower) (e : Expr) : Stops fun stop => Read.extend stop p e
  expression (p : BindingPower) : Advances fun stop => Read.expression stop p
  bareStatement : Advances Read.bareStatement
  statement : Advances Read.statement
  blockTail : Advances Read.blockTail
  block : Advances Read.block

theorem progress : Progress where
  expect usual := .of_upTo (fun _ _ _ ts ends _ => Read.expect_upTo ends usual ts) length_of_plain
  parameter := .of_upTo (fun _ _ _ ts ends _ => Read.parameter_upTo ends ts) length_of_plain
  parameters := .of_upTo (fun _ _ _ ts ends _ => Read.parameters_upTo ends ts) length_of_plain
  elements usual := .of_upTo (fun _ _ _ _ ends below =>
    Read.elements_upTo ends (below _) usual (Nat.lt_succ_self _)) length_of_plain
  entry := .of_upTo (fun _ _ _ _ ends below => Read.entry_upTo ends (below _) (Nat.lt_succ_self _)) length_of_plain
  entries := .of_upTo (fun _ _ _ _ ends below => Read.entries_upTo ends (below _) (Nat.lt_succ_self _)) length_of_plain
  start := .of_upTo (fun _ _ _ _ ends below => Read.start_upTo ends (below _) (Nat.lt_succ_self _)) length_of_plain
  extend p e := .of_upTo fun stop _ after _ ends =>
    Read.extend_upTo ends (Read.upToBelow ends stop after _) p e (Nat.lt_succ_self _)
  expression p := .of_upTo (fun _ _ _ _ ends below =>
    Read.expression_upTo ends (below _) p (Nat.lt_succ_self _)) length_of_plain
  bareStatement := .of_upTo (fun _ _ _ _ ends below =>
    Read.bareStatement_upTo ends (below _) (Nat.lt_succ_self _)) length_of_plain
  statement := .of_upTo (fun _ _ _ _ ends below =>
    Read.statement_upTo ends (below _) (Nat.lt_succ_self _)) length_of_plain
  blockTail := .of_upTo (fun _ _ _ _ ends below =>
    Read.blockTail_upTo ends (below _) (Nat.lt_succ_self _)) length_of_plain
  block := .of_upTo (fun _ _ _ _ ends below => Read.block_upTo ends (below _) (Nat.lt_succ_self _)) length_of_plain

/-! ### The first end token -/

/-- The tokens in front of the first end token. -/
def inFront (ts : List Token) : List Token := ts.takeWhile (·.kind ≠ .finish)
/-- The first end token and what stands behind it. -/
def atFinish (ts : List Token) : List Token := ts.dropWhile (·.kind ≠ .finish)

section
variable {used : List Token} (none : ∀ t ∈ used, t.kind ≠ .finish) (rest : List Token)
include none

theorem inFront_append : inFront (used ++ rest) = used ++ inFront rest :=
  List.takeWhile_append_of_pos fun t member => by simpa using none t member
theorem atFinish_append : atFinish (used ++ rest) = atFinish rest :=
  List.dropWhile_append_of_pos fun t member => by simpa using none t member

end

theorem inFront_cons {t : Token} (usual : t.kind ≠ .finish) (ts : List Token) : inFront (t :: ts) = t :: inFront ts :=
  List.takeWhile_cons_of_pos (by simpa using usual)
theorem atFinish_finish {fin : Token} (ends : fin.kind = .finish) (after : List Token) :
    atFinish (fin :: after) = fin :: after :=
  List.dropWhile_cons_of_neg (by simp [ends])
theorem inFront_finish {before : List Token} (none : ∀ t ∈ before, t.kind ≠ .finish) {fin : Token}
    (ends : fin.kind = .finish) (after : List Token) : inFront (before ++ fin :: after) = before := by
  rw [inFront_append none, inFront, List.takeWhile_cons_of_neg (by simp [ends]), List.append_nil]
theorem inFront_eq {ts : List Token} (none : ∀ t ∈ ts, t.kind ≠ .finish) : inFront ts = ts := by
  simpa [inFront] using inFront_append none []
/-- What is read leaves less in front of the first end token. -/
theorem Advances.inFront_lt {α : Type} {read : FrontReader α} (advances : Advances read) {stop : Span}
    {ts rest : List Token} {a : α} (taken : read stop ts = .ok (a, rest)) :
    (inFront rest).length < (inFront ts).length := by
  have shorter := advances.progress taken
  obtain ⟨used, none, rfl⟩ := advances.front taken
  simp only [inFront_append none, List.length_append] at shorter ⊢
  omega

theorem usual_of_is {t : Token} {m : Mark} (found : t.is m) (usual : m.kind ≠ .finish) : t.kind ≠ .finish :=
  (Token.kind_of_is found).trans_ne usual
theorem Advances.inFront_lt_of_comma {α : Type} {read : FrontReader α} (advances : Advances read) {stop : Span}
    {ts rest : List Token} {a : α} {t : Token} (taken : read stop ts = .ok (a, t :: rest)) (comma : t.is .comma) :
    (inFront rest).length < (inFront ts).length := by
  have less := advances.inFront_lt taken
  rw [inFront_cons (usual_of_is comma (by decide)), List.length_cons] at less
  exact Nat.lt_of_succ_lt less

/-! ### Loops -/

/-- One round of a loop of the parser, from the tokens at which it begins to those that it
    leaves for the next round. -/
inductive Round (stop : Span) : List Token → List Token → Prop
  | statement {ts rest : List Token} {s : Statement} : Read.statement stop ts = .ok (s, rest) → Round stop ts rest
  | parameter {ts rest : List Token} {i : Identifier} {t : Token} :
    Read.parameter stop ts = .ok (i, t :: rest) → t.is .comma → Round stop ts rest
  | element {ts rest : List Token} {e : Expr} {t : Token} :
    Read.expression stop .lowest ts = .ok (e, t :: rest) → t.is .comma → Round stop ts rest
  | entry {ts rest : List Token} {kv : Expr × Expr} {t : Token} :
    Read.entry stop ts = .ok (kv, t :: rest) → t.is .comma → Round stop ts rest
  /-- The arguments behind what is called. -/
  | call {ts rest : List Token} {t : Token} {arguments : List Expr × Span} : t.is .openGroup →
    Read.sequence stop .closeGroup (Parse.expression stop .lowest) ts = .ok (arguments, rest) →
      Round stop (t :: ts) rest
  /-- An operator behind its left operand, and its right operand. -/
  | operand {ts rest : List Token} {t : Token} {p : BindingPower} {e : Expr} : t.kind = .operator →
    Read.expression stop p ts = .ok (e, rest) → Round stop (t :: ts) rest

/-- Any number of rounds. -/
abbrev Rounds (stop : Span) : List Token → List Token → Prop := Relation.ReflTransGen (Round stop)

section
variable {stop : Span}

/-- A round leaves less in front of the first end token. -/
theorem Round.inFront_lt {ts rest : List Token} (round : Round stop ts rest) :
    (inFront rest).length < (inFront ts).length := by
  cases round with
  | statement taken => exact progress.statement.inFront_lt taken
  | parameter taken comma => exact progress.parameter.inFront_lt_of_comma taken comma
  | element taken comma => exact (progress.expression .lowest).inFront_lt_of_comma taken comma
  | entry taken comma => exact progress.entry.inFront_lt_of_comma taken comma
  | call opens taken =>
    rw [inFront_cons (usual_of_is opens (by decide)), List.length_cons]
    exact Nat.lt_succ_of_lt ((progress.elements (by decide)).inFront_lt taken)
  | operand operator taken =>
    rw [inFront_cons (by simp [operator]), List.length_cons]
    exact Nat.lt_succ_of_lt ((progress.expression _).inFront_lt taken)
/-- No loop goes round more often than there are tokens in front of the first end token. -/
theorem rounds_le {ts : List Token} {rests : List (List Token)} (chain : List.IsChain (Round stop) (ts :: rests)) :
    rests.length ≤ (inFront ts).length := by
  induction rests generalizing ts with
  | nil => exact Nat.zero_le _
  | cons us rests ih =>
    obtain ⟨round, chain⟩ := List.isChain_cons_cons.mp chain
    have less := round.inFront_lt
    have rest := ih chain
    rw [List.length_cons]
    omega

/-- Statements that are read one after the other, each where the one before it ended. -/
inductive Consumed (stop : Span) : List Token → List Statement → List Token → Prop
  | nil {ts : List Token} : Consumed stop ts [] ts
  | cons {ts us rest : List Token} {s : Statement} {ss : List Statement} :
    Read.statement stop ts = .ok (s, us) → Consumed stop us ss rest → Consumed stop ts (s :: ss) rest

theorem Consumed.rounds {ts rest : List Token} {ss : List Statement} (consumed : Consumed stop ts ss rest) :
    Rounds stop ts rest := by
  induction consumed with
  | nil => exact .refl
  | cons first _ ih => exact .head (.statement first) ih

/-- The statements of a program end at the first end token. -/
theorem statements_consumed {ts : List Token} {ss : List Statement} {last : Span}
    (read : statements stop ts = .ok (ss, last)) : Consumed stop ts ss (atFinish ts) := by
  induction size : ts.length using Nat.strongRecOn generalizing ts ss with
  | _ m ih =>
    subst size
    cases ts with
    | nil =>
      cases (Read.statements_nil stop).symm.trans read
      exact .nil
    | cons t ts =>
      rw [Read.statements_cons] at read
      split at read
      · next ends =>
        cases read
        rw [atFinish_finish ends]
        exact .nil
      · obtain ⟨⟨s, us⟩, first, read⟩ := bind_eq_ok.mp read
        obtain ⟨⟨ss, last⟩, tail, behind⟩ := bind_eq_ok.mp read
        cases behind
        have consumed := ih us.length (Read.length_statement stop first) tail rfl
        obtain ⟨used, none, split⟩ := progress.statement.front first
        rw [split, atFinish_append none, ← split]
        exact .cons first consumed
/-- The statements of a block end at its closing brace. -/
theorem blockTail_consumed {ts rest : List Token} {ss : List Statement} {last : Span}
    (read : Read.blockTail stop ts = .ok ((ss, last), rest)) :
    ∃ t, t.is .closeBlock ∧ Consumed stop ts ss (t :: rest) := by
  induction size : ts.length using Nat.strongRecOn generalizing ts ss with
  | _ m ih =>
    subst size
    cases ts with
    | nil => cases (Read.blockTail_nil stop).symm.trans read
    | cons t ts =>
      rw [Read.blockTail_cons] at read
      split at read
      · next closed =>
        cases read
        exact ⟨t, closed, .nil⟩
      split at read
      · cases read
      · obtain ⟨⟨s, us⟩, first, read⟩ := bind_eq_ok.mp read
        obtain ⟨⟨⟨ss, last⟩, vs⟩, tail, behind⟩ := bind_eq_ok.mp read
        cases behind
        obtain ⟨u, closed, consumed⟩ := ih us.length (Read.length_statement stop first) tail rfl
        exact ⟨u, closed, .cons first consumed⟩
/-- What an expression goes on with is taken round by round. -/
theorem extend_rounds {p : BindingPower} {d e : Expr} {ts rest : List Token}
    (read : Read.extend stop p d ts = .ok (e, rest)) : Rounds stop ts rest := by
  induction size : ts.length using Nat.strongRecOn generalizing ts d with
  | _ m ih =>
    subst size
    cases ts with
    | nil =>
      cases (Read.extend_nil stop p d).symm.trans read
      exact .refl
    | cons t ts =>
      rw [Read.extend_cons] at read
      split at read
      · cases read
        exact .refl
      next binds =>
      split at read
      · split at read
        · next call =>
          obtain ⟨⟨arguments, us⟩, first, behind⟩ := bind_eq_ok.mp read
          have shorter := (progress.elements (by decide)).progress first
          exact .head (.call call.1 first) (ih us.length (Nat.lt_succ_of_lt shorter) behind rfl)
        · cases read
          exact .refl
      next kind =>
      have operator : t.kind = .operator := (BindingPower.kind_of_left_pos (by omega)).resolve_right kind
      have goesOn {q : BindingPower} {a d' : Expr} {us : List Token}
          (first : Read.expression stop q ts = .ok (a, us)) (behind : Read.extend stop p d' us = .ok (e, rest)) :
          Rounds stop (t :: ts) rest := by
        have shorter := (progress.expression q).progress first
        exact .head (.operand operator first) (ih us.length (Nat.lt_succ_of_lt shorter) behind rfl)
      split at read
      · split at read
        · obtain ⟨⟨value, us⟩, first, behind⟩ := bind_eq_ok.mp read
          exact goesOn first behind
        · cases read
      · split at read
        · cases read
        · obtain ⟨⟨right, us⟩, first, behind⟩ := bind_eq_ok.mp read
          exact goesOn first behind
/-- Items are taken round by round up to the last one, behind which the closing mark stands. -/
theorem items_rounds {α : Type} {close : Mark} {item : (ts : List Token) → Answer α ts.length}
    (round : ∀ {ts rest a t}, plain (item ts) = .ok (a, t :: rest) → t.is .comma → Round stop ts rest)
    {ts rest : List Token} {x : List α × Span} (read : Read.items stop close item ts = .ok (x, rest)) :
    ∃ us a t, Rounds stop ts us ∧ plain (item us) = .ok (a, t :: rest) ∧ t.is close := by
  induction size : ts.length using Nat.strongRecOn generalizing ts x with
  | _ m ih =>
    subst size
    obtain ⟨a, t, us, first, ⟨closed, _, _, rfl⟩ | ⟨comma, _, _, tail⟩⟩ := Grammar.items_cases read
    · exact ⟨ts, a, t, .refl, first, closed⟩
    · have shorter := length_of_plain first
      rw [List.length_cons] at shorter
      obtain ⟨vs, b, u, rounds, last, closed⟩ := ih us.length (by omega) tail rfl
      exact ⟨vs, b, u, .head (round first comma) rounds, last, closed⟩

end

/-- Whether the loops of the parser come round by round to where they end. -/
structure GoesRound (stop : Span) : Prop where
  statements {ts : List Token} {ss : List Statement} {last : Span} :
    Parse.statements stop ts = .ok (ss, last) → Rounds stop ts (atFinish ts)
  blockTail {ts rest : List Token} {x : List Statement × Span} :
    Read.blockTail stop ts = .ok (x, rest) → ∃ t, t.is .closeBlock ∧ Rounds stop ts (t :: rest)
  extend {p : BindingPower} {d e : Expr} {ts rest : List Token} :
    Read.extend stop p d ts = .ok (e, rest) → Rounds stop ts rest
  parameters {ts rest : List Token} {x : List Identifier × Span} :
    Read.items stop .closeGroup (Parse.parameter stop) ts = .ok (x, rest) →
      ∃ us i t, Rounds stop ts us ∧ Read.parameter stop us = .ok (i, t :: rest) ∧ t.is .closeGroup
  elements {close : Mark} {ts rest : List Token} {x : List Expr × Span} :
    Read.items stop close (Parse.expression stop .lowest) ts = .ok (x, rest) →
      ∃ us e t, Rounds stop ts us ∧ Read.expression stop .lowest us = .ok (e, t :: rest) ∧ t.is close
  entries {ts rest : List Token} {x : List (Expr × Expr) × Span} :
    Read.items stop .closeList (Parse.entry stop) ts = .ok (x, rest) →
      ∃ us kv t, Rounds stop ts us ∧ Read.entry stop us = .ok (kv, t :: rest) ∧ t.is .closeList

theorem goesRound (stop : Span) : GoesRound stop where
  statements read := (statements_consumed read).rounds
  blockTail read :=
    let ⟨t, closed, consumed⟩ := blockTail_consumed read
    ⟨t, closed, consumed.rounds⟩
  extend := extend_rounds
  parameters := items_rounds .parameter
  elements := items_rounds .element
  entries := items_rounds .entry

end Parse

/-! ### Programs -/

namespace Read

/-- The statements in front of an end token are all that is read. -/
theorem statements_upTo {fin : Token} (ends : fin.kind = .finish) (stop : Span) (after ts : List Token) :
    Parse.statements stop (ts ++ fin :: after) = Parse.statements fin.span ts := by
  induction size : ts.length using Nat.strongRecOn generalizing ts with
  | _ m ih =>
    subst size
    cases ts with
    | nil => rw [List.nil_append, statements_cons, if_pos ends, statements_nil]
    | cons t ts =>
      rw [List.cons_append, statements_cons, statements_cons, ← List.cons_append]
      split
      · rfl
      · have upTo := statement_upTo ends (upToBelow ends stop after _) (Nat.lt_succ_self (t :: ts).length)
        rw [upTo.eq_map]
        cases first : statement fin.span (t :: ts) with
        | error e => rfl
        | ok x =>
          have rest := ih x.2.length (length_statement fin.span first) x.2 rfl
          simp only [Except.map, bind, Except.bind, rest]

end Read

namespace Program
open Parse (inFront atFinish)

theorem ofTokens_finish {fin : Token} (ends : fin.kind = .finish) (stop : Span) (after ts : List Token) :
    ofTokens (ts ++ fin :: after) stop = ofTokens ts fin.span := by
  rw [ofTokens, ofTokens, Read.statements_upTo ends]
/-- A program is made up by all tokens in front of the first end token, and by no others. -/
theorem statements_inFront {ts : List Token} {stop : Span} {p : Program} (read : ofTokens ts stop = .ok p) :
    Grammar.Statements (inFront ts) p.statements := by
  rcases Parse.cut_finish ts with none | ⟨before, fin, after, none, ends, rfl⟩
  · rw [Parse.inFront_eq none]
    exact ((ofTokens_iff_derives none p).mp read).1
  · rw [Parse.inFront_finish none ends]
    rw [ofTokens_finish ends] at read
    exact ((ofTokens_iff_derives none p).mp read).1
theorem consumed_of_ofTokens {ts : List Token} {stop : Span} {p : Program} (read : ofTokens ts stop = .ok p) :
    Parse.Consumed stop ts p.statements (atFinish ts) := by
  obtain ⟨⟨ss, finish⟩, statements, built⟩ := bind_eq_ok.mp read
  cases built
  exact Parse.statements_consumed statements

/-- Every list of tokens, with end tokens anywhere in it, is read to an answer: each thing
    that is read takes a token, so no loop goes round more often than there are tokens in
    front of the first end token; what stands behind that token never counts; and a program
    uses up every token in front of it. -/
theorem ofTokens_upTo_finish (stop : Span) :
    Parse.Progress ∧ Parse.GoesRound stop ∧
      (∀ ts rests, List.IsChain (Parse.Round stop) (ts :: rests) → rests.length ≤ (inFront ts).length) ∧
      (∀ ts fin after, fin.kind = .finish → ofTokens (ts ++ fin :: after) stop = ofTokens ts fin.span) ∧
      ∀ ts p, ofTokens ts stop = .ok p →
        Parse.Consumed stop ts p.statements (atFinish ts) ∧ Grammar.Statements (inFront ts) p.statements :=
  ⟨Parse.progress, Parse.goesRound stop, fun _ _ => Parse.rounds_le,
    fun ts _ after ends => ofTokens_finish ends stop after ts,
    fun _ _ read => ⟨consumed_of_ofTokens read, statements_inFront read⟩⟩

/-- A name, an end token and a bracket with which no statement begins. -/
theorem ofTokens_upTo_finish_name :
    let name : Token := ⟨.identifier, "x", .origin⟩
    let bracket : Token := ⟨.listDelimiter, "]", .origin⟩
    let s : Statement := .expression (.identifier ⟨"x", .origin⟩)
    ofTokens [name, bracket] .origin = .error ⟨.expression .listDelimiter, .origin⟩ ∧
      ofTokens [name, .finish .origin, bracket] .origin = .ok ⟨[s], .origin⟩ ∧
      Parse.Consumed .origin [name, .finish .origin, bracket] [s] [.finish .origin, bracket] := by
  intro name bracket s
  obtain ⟨_, _, _, beyond, consumed⟩ := ofTokens_upTo_finish .origin
  have read : ofTokens [name] .origin = .ok ⟨[s], .origin⟩ := by cbv
  have whole := (beyond [name] (.finish .origin) [bracket] rfl).trans read
  exact ⟨by cbv, whole, (consumed _ _ whole).1⟩

end Program
end KoreanScript
