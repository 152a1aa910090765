import KoreanScript.Tree.Parse

/-!
The readers of `Parse` without their bounds. A reader answers its rest with a
proof that it is shorter, and takes such proofs for what it was given; here both
are forgotten (`plain`), which leaves one equation for every construct. The
equations hold of errors as well as of trees.
-/
namespace KoreanScript.Parse
variable {α β : Type} {n m : Nat}

/-- An answer without the proof that its rest is shorter. -/
def plain (x : Answer α n) : Except ParseError (α × List Token) :=
  x.map fun (a, rest) => (a, rest.val)
@[simp] theorem plain_ok (a : α) (rest : Shorter n) :
    plain (.ok (a, rest) : Answer α n) = .ok (a, rest.val) := rfl
@[simp] theorem plain_error (e : ParseError) : plain (.error e : Answer α n) = .error e := rfl
theorem plain_bind {x : Answer α n} {f : α × Shorter n → Answer β m}
    {g : α × List Token → Except ParseError (β × List Token)}
    (agree : ∀ a rest, plain (f (a, rest)) = g (a, rest.val)) :
    plain (x >>= f) = plain x >>= g := by
  cases x with
  | error e => rfl
  | ok a => exact agree a.1 a.2
theorem plain_bind_congr {k : Nat} {x : Answer α n} {f : α × Shorter n → Answer β m}
    {g : α × Shorter n → Answer β k} (agree : ∀ a, plain (f a) = plain (g a)) :
    plain (x >>= f) = plain (x >>= g) := by
  cases x with
  | error e => rfl
  | ok a => exact agree a
theorem length_of_plain {x : Answer α n} {a : α} {rest : List Token} (read : plain x = .ok (a, rest)) :
    rest.length < n := by
  cases x with
  | error e => simp at read
  | ok b =>
    obtain ⟨c, us, shorter⟩ := b
    simp only [plain_ok, Except.ok.injEq, Prod.mk.injEq] at read
    exact read.2 ▸ shorter

end KoreanScript.Parse

namespace KoreanScript

theorem bind_eq_ok {ε α β : Type} {x : Except ε α} {f : α → Except ε β} {b : β} :
    x >>= f = .ok b ↔ ∃ a, x = .ok a ∧ f a = .ok b := by
  cases x with
  | error e =>
    constructor
    · intro failed; cases failed
    · rintro ⟨a, failed, _⟩; cases failed
  | ok a =>
    constructor
    · intro read; exact ⟨a, rfl, read⟩
    · rintro ⟨b, same, read⟩; cases same; exact read
theorem bind_eq_error {ε α β : Type} {x : Except ε α} {f : α → Except ε β} {e : ε} :
    x >>= f = .error e ↔ x = .error e ∨ ∃ a, x = .ok a ∧ f a = .error e := by
  cases x with
  | error d =>
    constructor
    · intro failed; cases failed; exact .inl rfl
    · rintro (failed | ⟨a, failed, _⟩)
      · cases failed; rfl
      · cases failed
  | ok a =>
    constructor
    · intro failed; exact .inr ⟨a, rfl, failed⟩
    · rintro (failed | ⟨b, same, failed⟩)
      · cases failed
      · cases same; exact failed
/-- If nothing that comes behind can fail, the first part has failed. -/
theorem error_of_bind_ok {ε α β : Type} {x : Except ε α} {f : α → Except ε β} {e : ε} (failed : x >>= f = .error e)
    (goes : ∀ a, ∃ b, f a = .ok b) : x = .error e := by
  rcases bind_eq_error.mp failed with first | ⟨a, _, behind⟩
  · exact first
  · obtain ⟨b, fine⟩ := goes a
    cases fine.symm.trans behind

end KoreanScript

namespace KoreanScript.Read
open Parse (Answer Shorter plain plain_ok plain_error plain_bind plain_bind_congr)

variable {α : Type} (stop : Span)

def expect (m : Mark) (ts : List Token) : Except ParseError (Token × List Token) :=
  plain (Parse.expect stop m ts)
def parameter (ts : List Token) : Except ParseError (Identifier × List Token) :=
  plain (Parse.parameter stop ts)
/-- At least one item, whatever reads an item, and the closing mark. -/
def items (close : Mark) (item : (ts : List Token) → Answer α ts.length) (ts : List Token) :
    Except ParseError ((List α × Span) × List Token) :=
  plain (Parse.items stop close (ts.length + 1) (fun us _ => item us) ts (Nat.lt_succ_self _))
def sequence (close : Mark) (item : (ts : List Token) → Answer α ts.length) (ts : List Token) :
    Except ParseError ((List α × Span) × List Token) :=
  plain (Parse.sequence stop close (ts.length + 1) (fun us _ => item us) ts (Nat.lt_succ_self _))
def expression (p : BindingPower) (ts : List Token) : Except ParseError (Expr × List Token) :=
  plain (Parse.expression stop p ts)
def extend (p : BindingPower) (e : Expr) (ts : List Token) : Except ParseError (Expr × List Token) :=
  plain (Parse.extend stop p (ts.length + 1) e ts (Nat.lt_succ_self _))
def start (ts : List Token) : Except ParseError (Expr × List Token) := plain (Parse.start stop ts)
def entry (ts : List Token) : Except ParseError ((Expr × Expr) × List Token) :=
  plain (Parse.entry stop ts)
def bareStatement (ts : List Token) : Except ParseError (Statement × List Token) :=
  plain (Parse.bareStatement stop ts)
def statement (ts : List Token) : Except ParseError (Statement × List Token) :=
  plain (Parse.statement stop ts)
def blockTail (ts : List Token) : Except ParseError ((List Statement × Span) × List Token) :=
  plain (Parse.blockTail stop ts)
def block (ts : List Token) : Except ParseError (Block × List Token) := plain (Parse.block stop ts)

theorem expect_nil (m : Mark) : expect stop m [] = .error (.ofDelimiter (.finish stop) m) := rfl
theorem expect_cons (m : Mark) (t : Token) (ts : List Token) :
    expect stop m (t :: ts) = if t.is m then .ok (t, ts) else .error (.ofDelimiter t m) := by
  unfold expect Parse.expect
  by_cases found : t.is m
  · simp [found]
  · simp [found]
theorem parameter_nil :
    parameter stop [] = .error ⟨.identifier (Token.finish stop).display, stop⟩ := rfl
theorem parameter_cons (t : Token) (ts : List Token) :
    parameter stop (t :: ts) =
      if t.kind = .identifier then .ok (⟨t.value, t.span⟩, ts)
      else .error ⟨.identifier t.display, t.span⟩ := by
  unfold parameter Parse.parameter
  by_cases named : t.kind = .identifier
  · simp [named]
  · simp [named]

/-! ### Sequences -/

section
variable (close : Mark) (item : (ts : List Token) → Answer α ts.length)

/-- What items are read does not hang on the bound. -/
private theorem items_bound (n m : Nat) (ts : List Token) (h : ts.length < n) (k : ts.length < m) :
    Parse.items stop close n (fun us _ => item us) ts h =
      Parse.items stop close m (fun us _ => item us) ts k := by
  rw [Parse.items, Parse.items]
  congr 1
  funext x
  obtain ⟨a, rest, shorter⟩ := x
  cases rest with
  | nil => rfl
  | cons t rest =>
    have behind : rest.length < ts.length := by simp only [List.length_cons] at shorter; omega
    simp only [items_bound n m rest (by omega) (by omega)]
termination_by ts.length

theorem items_eq (ts : List Token) : items stop close item ts = (do
    let (a, rest) ← plain (item ts)
    match rest with
    | [] => .error (.ofDelimiter (.finish stop) close)
    | t :: rest =>
      if t.is close then .ok (([a], t.span), rest)
      else if t.is .comma then do
        let ((as, last), rest) ← items stop close item rest
        .ok ((a :: as, last), rest)
      else .error (.ofDelimiter t close)) := by
  rw [items, Parse.items]
  apply plain_bind
  rintro a ⟨rest, shorter⟩
  cases rest with
  | nil => rfl
  | cons t rest =>
    by_cases closed : t.is close
    · simp only [closed, ↓reduceIte]
      rfl
    · by_cases more : t.is .comma
      · simp only [closed, more, ↓reduceIte, Bool.false_eq_true]
        rw [items, items_bound stop close item (rest.length + 1) (ts.length + 1)]
        exact plain_bind fun _ _ => rfl
      · simp only [closed, more, ↓reduceIte, Bool.false_eq_true]
        rfl
theorem sequence_nil : sequence stop close item [] = items stop close item [] := by
  rw [sequence, Parse.sequence, items]
theorem sequence_cons (t : Token) (ts : List Token) :
    sequence stop close item (t :: ts) =
      if t.is close then .ok (([], t.span), ts) else items stop close item (t :: ts) := by
  rw [sequence, Parse.sequence, items]
  by_cases closed : t.is close
  · simp [closed]
  · simp [closed]
end

/-! ### Expressions -/

/-- What an expression goes on with does not hang on the bound. -/
private theorem extend_bound (p : BindingPower) (n m : Nat) :
    ∀ (e : Expr) (ts : List Token) (h : ts.length < n) (k : ts.length < m),
      plain (Parse.extend stop p n e ts h) = plain (Parse.extend stop p m e ts k)
  | e, [], _, _ => by rw [Parse.extend, Parse.extend]; rfl
  | e, t :: ts, _, _ => by
    rw [Parse.extend.eq_def, Parse.extend.eq_def stop p m]
    simp only
    split
    · rfl
    split
    · split
      · apply plain_bind_congr
        rintro ⟨⟨arguments, last⟩, rest, shorter⟩
        exact extend_bound p n m _ rest _ _
      · rfl
    split
    · cases e with
      | identifier i =>
        apply plain_bind_congr
        rintro ⟨value, rest, shorter⟩
        exact extend_bound p n m _ rest _ _
      | _ => rfl
    · cases InfixOperator.ofLexeme? t.value with
      | none => rfl
      | some op =>
        apply plain_bind_congr
        rintro ⟨right, rest, shorter⟩
        exact extend_bound p n m _ rest _ _
termination_by _ ts => ts.length
decreasing_by all_goals simp only [List.length_cons]; omega

theorem expression_eq (p : BindingPower) (ts : List Token) : expression stop p ts = (do
    let (e, rest) ← start stop ts
    extend stop p e rest) := by
  rw [expression, Parse.expression]
  apply plain_bind
  rintro e ⟨rest, shorter⟩
  exact extend_bound stop p _ _ e rest _ _
theorem extend_nil (p : BindingPower) (e : Expr) : extend stop p e [] = .ok (e, []) := by
  rw [extend, Parse.extend]
  rfl
/-- How the token behind an expression goes on with it. -/
theorem extend_cons (p : BindingPower) (e : Expr) (t : Token) (ts : List Token) :
    extend stop p e (t :: ts) = (
      if (BindingPower.ofToken t).left ≤ p.right then .ok (e, t :: ts)
      else if t.kind = .groupDelimiter then
        if t.is .openGroup ∧ e.isCallable then do
          let ((arguments, last), rest) ← sequence stop .closeGroup (Parse.expression stop .lowest) ts
          extend stop p (.call e arguments (e.span.through last)) rest
        else .ok (e, t :: ts)
      else if t.is .assignment then
        match e with
        | .identifier i => do
          let (value, rest) ← expression stop .assignment ts
          extend stop p (.assignment i value (i.span.through value.span)) rest
        | e => .error ⟨.assignmentTarget e.render, e.span⟩
      else
        match InfixOperator.ofLexeme? t.value with
        | none => .error ⟨.infixOperator t.value, t.span⟩
        | some op => do
          let (right, rest) ← expression stop (.ofToken t) ts
          extend stop p (.binary op e right (e.span.through right.span)) rest) := by
  rw [extend, Parse.extend.eq_def]
  simp only
  split
  · rfl
  split
  · split
    · apply plain_bind
      rintro ⟨arguments, last⟩ ⟨rest, shorter⟩
      exact extend_bound stop p _ _ _ rest _ _
    · rfl
  split
  · cases e with
    | identifier i =>
      apply plain_bind
      rintro value ⟨rest, shorter⟩
      exact extend_bound stop p _ _ _ rest _ _
    | _ => rfl
  · cases InfixOperator.ofLexeme? t.value with
    | none => rfl
    | some op =>
      apply plain_bind
      rintro right ⟨rest, shorter⟩
      exact extend_bound stop p _ _ _ rest _ _

theorem start_nil : start stop [] = .error ⟨.expression .finish, stop⟩ := by
  rw [start, Parse.start]
  rfl
/-- What a keyword or a delimiter at the front of an expression makes of it. -/
def opened (t : Token) (ts : List Token) : Except ParseError (Expr × List Token) :=
  if t.is .function then do
    let (_, rest) ← expect stop .openGroup ts
    let ((parameters, _), rest) ← sequence stop .closeGroup (Parse.parameter stop) rest
    let (body, rest) ← block stop rest
    .ok (.function parameters body (t.span.through body.span), rest)
  else if t.is .openGroup then do
    let (e, rest) ← expression stop .lowest ts
    let (last, rest) ← expect stop .closeGroup rest
    .ok (e.withSpan (t.span.through last.span), rest)
  else if t.is .openList then
    match ts with
    | [] => .error ⟨.expression .finish, stop⟩
    | u :: rest =>
      if u.is .tableMarker then do
        let ((entries, last), rest) ← sequence stop .closeList (Parse.entry stop) rest
        .ok (.table entries (t.span.through last), rest)
      else do
        let ((elements, last), rest) ←
          sequence stop .closeList (Parse.expression stop .lowest) (u :: rest)
        .ok (.list elements (t.span.through last), rest)
  else .error ⟨.expression t.kind, t.span⟩
/-- What a token at the front of an expression makes of it. -/
theorem start_cons (t : Token) (ts : List Token) :
    start stop (t :: ts) = (
      match t.kind with
      | .number =>
        match Decimal.read? t.value with
        | some x => .ok (.number x t.span, ts)
        | none => .error ⟨.numberLiteral t.value, t.span⟩
      | .boolean =>
        match Word.toBool? t.value with
        | some b => .ok (.boolean b t.span, ts)
        | none => .error ⟨.booleanLiteral t.value, t.span⟩
      | .string => .ok (.string t.value t.span, ts)
      | .identifier => .ok (.identifier ⟨t.value, t.span⟩, ts)
      | .operator =>
        match PrefixOperator.ofLexeme? t.value with
        | none => .error ⟨.prefixOperator t.value, t.span⟩
        | some op => do
          let (e, rest) ← expression stop .leading ts
          .ok (.prefixed op e (t.span.through e.span), rest)
      | _ => opened stop t ts) := by
  rw [start, Parse.start.eq_def]
  cases kind : t.kind with
  | number =>
    simp only [kind]
    cases Decimal.read? t.value <;> rfl
  | boolean =>
    simp only [kind]
    cases Word.toBool? t.value <;> rfl
  | string => simp only [kind]; rfl
  | identifier => simp only [kind]; rfl
  | operator =>
    simp only [kind]
    cases PrefixOperator.ofLexeme? t.value with
    | none => rfl
    | some op => exact plain_bind fun _ _ => rfl
  | _ =>
    simp only [kind, opened]
    split
    · apply plain_bind
      rintro first ⟨rest, shorter⟩
      apply plain_bind
      rintro ⟨parameters, last⟩ ⟨rest, shorter⟩
      exact plain_bind fun _ _ => rfl
    split
    · apply plain_bind
      rintro e ⟨rest, shorter⟩
      exact plain_bind fun _ _ => rfl
    split
    · cases ts with
      | nil => rfl
      | cons u rest =>
        simp only
        split
        · exact plain_bind fun _ _ => rfl
        · exact plain_bind fun _ _ => rfl
    · rfl
theorem entry_eq (ts : List Token) : entry stop ts = (do
    let (key, rest) ← expression stop .lowest ts
    let (_, rest) ← expect stop .colon rest
    let (value, rest) ← expression stop .lowest rest
    .ok ((key, value), rest)) := by
  rw [entry, Parse.entry]
  apply plain_bind
  rintro key ⟨rest, shorter⟩
  apply plain_bind
  rintro colon ⟨rest, shorter⟩
  exact plain_bind fun _ _ => rfl

/-! ### Statements -/

theorem bareStatement_nil : bareStatement stop [] = .error ⟨.expression .finish, stop⟩ := by
  rw [bareStatement, Parse.bareStatement]
  rfl
theorem bareStatement_cons (t : Token) (ts : List Token) :
    bareStatement stop (t :: ts) = (
      if t.is .branch then do
        let (predicate, rest) ← expression stop .lowest ts
        let (consequence, rest) ← block stop rest
        match rest with
        | [] => .ok (.branch predicate consequence none (t.span.through consequence.span), [])
        | u :: rest =>
          if u.is .otherwise then do
            let (alternative, rest) ← block stop rest
            .ok (.branch predicate consequence (some alternative) (t.span.through alternative.span),
              rest)
          else
            .ok (.branch predicate consequence none (t.span.through consequence.span), u :: rest)
      else if t.is .giveBack then do
        let (e, rest) ← expression stop .lowest ts
        .ok (.giveBack e (t.span.through e.span), rest)
      else if t.is .otherwise then .error ⟨.keyword t.value, t.span⟩
      else do
        let (e, rest) ← expression stop .lowest (t :: ts)
        .ok (.expression e, rest)) := by
  rw [bareStatement, Parse.bareStatement]
  split
  · apply plain_bind
    rintro predicate ⟨rest, shorter⟩
    apply plain_bind
    rintro consequence ⟨rest, shorter⟩
    cases rest with
    | nil => rfl
    | cons u rest =>
      simp only
      split
      · exact plain_bind fun _ _ => rfl
      · rfl
  split
  · exact plain_bind fun _ _ => rfl
  split
  · rfl
  · exact plain_bind fun _ _ => rfl
theorem statement_eq (ts : List Token) : statement stop ts = (do
    let (s, rest) ← bareStatement stop ts
    .ok (s, Parse.skipSemicolon rest)) := by
  rw [statement, Parse.statement]
  exact plain_bind fun _ _ => rfl
theorem blockTail_nil : blockTail stop [] = .error (.ofDelimiter (.finish stop) .closeBlock) := by
  rw [blockTail, Parse.blockTail]
  rfl
theorem blockTail_cons (t : Token) (ts : List Token) :
    blockTail stop (t :: ts) = (
      if t.is .closeBlock then .ok (([], t.span), ts)
      else if t.kind = .finish then .error (.ofDelimiter t .closeBlock)
      else do
        let (s, rest) ← statement stop (t :: ts)
        let ((ss, last), rest) ← blockTail stop rest
        .ok ((s :: ss, last), rest)) := by
  rw [blockTail, Parse.blockTail]
  split
  · rfl
  split
  · rfl
  · apply plain_bind
    rintro s ⟨rest, shorter⟩
    exact plain_bind fun _ _ => rfl
theorem block_eq (ts : List Token) : block stop ts = (do
    let (first, rest) ← expect stop .openBlock ts
    let ((statements, last), rest) ← blockTail stop rest
    .ok (⟨statements, first.span.through last⟩, rest)) := by
  rw [block, Parse.block]
  apply plain_bind
  rintro first ⟨rest, shorter⟩
  exact plain_bind fun _ _ => rfl
theorem length_statement {ts rest : List Token} {s : Statement}
    (read : statement stop ts = .ok (s, rest)) : rest.length < ts.length :=
  Parse.length_of_plain read

/-! ### Programs -/

theorem statements_nil : Parse.statements stop [] = .ok ([], stop) := by
  rw [Parse.statements]
theorem statements_cons (t : Token) (ts : List Token) :
    Parse.statements stop (t :: ts) = (
      if t.kind = .finish then .ok ([], t.span)
      else do
        let (s, rest) ← statement stop (t :: ts)
        let (ss, last) ← Parse.statements stop rest
        .ok (s :: ss, last)) := by
  rw [Parse.statements, statement]
  cases Parse.statement stop (t :: ts) <;> rfl

end KoreanScript.Read
