import KoreanScript.BindingPower
import KoreanScript.Decimal.Literal
import KoreanScript.ParseError
import KoreanScript.Token.Scan
import KoreanScript.Tree.Render

/-!
From tokens to a syntax tree. Reading a construct takes tokens off the front of
a list and answers the rest with the proof that it is shorter, so every loop
ends. Expressions are read by binding powers: a start, which goes on for as long
as the token behind it binds tighter than the power asked for.

A list of tokens is followed by an end token at `stop`. An end token inside the
list ends the program as well, and nothing goes beyond it.
-/
namespace KoreanScript.Parse

/-- The rest of a list of `n` tokens after at least one of them. -/
abbrev Shorter (n : Nat) := {ts : List Token // ts.length < n}
/-- What reading an `α` off the front of `n` tokens gives. -/
abbrev Answer (α : Type) (n : Nat) := Except ParseError (α × Shorter n)

/-- The token that a mark requires. -/
def expect (stop : Span) (m : Mark) (ts : List Token) : Answer Token ts.length :=
  match ts with
  | [] => .error (.ofDelimiter (.finish stop) m)
  | t :: rest => if t.is m then .ok (t, ⟨rest, by simp⟩) else .error (.ofDelimiter t m)
/-- The tokens behind a semicolon, if one stands at the front. -/
def skipSemicolon : List Token → List Token
  | [] => []
  | t :: rest => if t.is .semicolon then rest else t :: rest
theorem length_skipSemicolon_le (ts : List Token) : (skipSemicolon ts).length ≤ ts.length := by
  cases ts with
  | nil => simp [skipSemicolon]
  | cons t rest => simp only [skipSemicolon]; split <;> simp

/-- At least one item, commas between them, and the closing mark, whose span is answered
    with the items. -/
def items {α : Type} (stop : Span) (close : Mark) (n : Nat)
    (item : (ts : List Token) → ts.length < n → Answer α ts.length)
    (ts : List Token) (h : ts.length < n) : Answer (List α × Span) ts.length := do
  let (a, ⟨rest, shorter⟩) ← item ts h
  match rest, shorter with
  | [], _ => .error (.ofDelimiter (.finish stop) close)
  | t :: rest, shorter =>
    have behind : rest.length < ts.length := by simp at shorter; omega
    if t.is close then .ok (([a], t.span), ⟨rest, behind⟩)
    else if t.is .comma then
      let ((as, last), ⟨rest, after⟩) ← items stop close n item rest (by omega)
      .ok ((a :: as, last), ⟨rest, by omega⟩)
    else .error (.ofDelimiter t close)
termination_by ts.length
/-- Any number of items, commas between them, and the closing mark. -/
def sequence {α : Type} (stop : Span) (close : Mark) (n : Nat)
    (item : (ts : List Token) → ts.length < n → Answer α ts.length)
    (ts : List Token) (h : ts.length < n) : Answer (List α × Span) ts.length :=
  match ts with
  | [] => items stop close n item [] h
  | t :: rest =>
    if t.is close then .ok (([], t.span), ⟨rest, by simp⟩)
    else items stop close n item (t :: rest) h
/-- A parameter of a function. -/
def parameter (stop : Span) (ts : List Token) : Answer Identifier ts.length :=
  match ts with
  | [] => .error ⟨.identifier (Token.finish stop).display, stop⟩
  | t :: rest =>
    if t.kind = .identifier then .ok (⟨t.value, t.span⟩, ⟨rest, by simp⟩)
    else .error ⟨.identifier t.display, t.span⟩

mutual
/-- An expression that binds tighter than `p` allows. -/
def expression (stop : Span) (p : BindingPower) (ts : List Token) : Answer Expr ts.length := do
  let (e, ⟨rest, shorter⟩) ← start stop ts
  extend stop p ts.length e rest shorter
termination_by (ts.length, 1)

/-- The longest expression that begins with `e` and goes on in `ts`. -/
def extend (stop : Span) (p : BindingPower) (n : Nat) (e : Expr) (ts : List Token)
    (h : ts.length < n) : Answer Expr n :=
  match ts with
  | [] => .ok (e, ⟨[], h⟩)
  | t :: rest =>
    have behind : rest.length < n := by simp at h; omega
    if (BindingPower.ofToken t).left ≤ p.right then .ok (e, ⟨t :: rest, h⟩)
    else if t.kind = .groupDelimiter then
      if t.is .openGroup ∧ e.isCallable then do
        let ((arguments, last), ⟨rest, shorter⟩) ← sequence stop .closeGroup (rest.length + 1)
          (fun us _ => expression stop .lowest us) rest (by omega)
        extend stop p n (.call e arguments (e.span.through last)) rest (by omega)
      else .ok (e, ⟨t :: rest, h⟩)
    else if t.is .assignment then
      match e with
      | .identifier i => do
        let (value, ⟨rest, shorter⟩) ← expression stop .assignment rest
        extend stop p n (.assignment i value (i.span.through value.span)) rest (by omega)
      | e => .error ⟨.assignmentTarget e.render, e.span⟩
    else
      match InfixOperator.ofLexeme? t.value with
      | none => .error ⟨.infixOperator t.value, t.span⟩
      | some op => do
        let (right, ⟨rest, shorter⟩) ← expression stop (.ofToken t) rest
        extend stop p n (.binary op e right (e.span.through right.span)) rest (by omega)
termination_by (ts.length, 2)

/-- What an expression starts with: an operand, with any operators before it. -/
def start (stop : Span) (ts : List Token) : Answer Expr ts.length :=
  match ts with
  | [] => .error ⟨.expression .finish, stop⟩
  | t :: rest =>
    match t.kind with
    | .number =>
      match Decimal.read? t.value with
      | some x => .ok (.number x t.span, ⟨rest, by simp⟩)
      | none => .error ⟨.numberLiteral t.value, t.span⟩
    | .boolean =>
      match Word.toBool? t.value with
      | some b => .ok (.boolean b t.span, ⟨rest, by simp⟩)
      | none => .error ⟨.booleanLiteral t.value, t.span⟩
    | .string => .ok (.string t.value t.span, ⟨rest, by simp⟩)
    | .identifier => .ok (.identifier ⟨t.value, t.span⟩, ⟨rest, by simp⟩)
    | .operator =>
      match PrefixOperator.ofLexeme? t.value with
      | none => .error ⟨.prefixOperator t.value, t.span⟩
      | some op => do
        let (e, ⟨rest, shorter⟩) ← expression stop .leading rest
        .ok (.prefixed op e (t.span.through e.span), ⟨rest, by simp; omega⟩)
    | kind =>
      if t.is .function then do
        let (_, ⟨rest, opened⟩) ← expect stop .openGroup rest
        let ((parameters, _), ⟨rest, closed⟩) ← sequence stop .closeGroup (rest.length + 1)
          (fun us _ => parameter stop us) rest (by omega)
        let (body, ⟨rest, shorter⟩) ← block stop rest
        .ok (.function parameters body (t.span.through body.span), ⟨rest, by simp; omega⟩)
      else if t.is .openGroup then do
        let (e, ⟨rest, shorter⟩) ← expression stop .lowest rest
        let (last, ⟨rest, closed⟩) ← expect stop .closeGroup rest
        .ok (e.withSpan (t.span.through last.span), ⟨rest, by simp; omega⟩)
      else if t.is .openList then
        match rest with
        | [] => .error ⟨.expression .finish, stop⟩
        | u :: rest =>
          if u.is .tableMarker then do
            let ((entries, last), ⟨rest, shorter⟩) ← sequence stop .closeList (rest.length + 1)
              (fun us _ => entry stop us) rest (by omega)
            .ok (.table entries (t.span.through last), ⟨rest, by simp; omega⟩)
          else do
            let ((elements, last), ⟨rest, shorter⟩) ← sequence stop .closeList (rest.length + 2)
              (fun us _ => expression stop .lowest us) (u :: rest) (by simp)
            .ok (.list elements (t.span.through last), ⟨rest, by simp at shorter ⊢; omega⟩)
      else .error ⟨.expression kind, t.span⟩
termination_by (ts.length, 0)

/-- A key and its value, with a colon between them. -/
def entry (stop : Span) (ts : List Token) : Answer (Expr × Expr) ts.length := do
  let (key, ⟨rest, shorter⟩) ← expression stop .lowest ts
  let (_, ⟨rest, behind⟩) ← expect stop .colon rest
  let (value, ⟨rest, after⟩) ← expression stop .lowest rest
  .ok ((key, value), ⟨rest, by omega⟩)
termination_by (ts.length, 2)

/-- A statement without the semicolon that may close it. -/
def bareStatement (stop : Span) (ts : List Token) : Answer Statement ts.length :=
  match ts with
  | [] => .error ⟨.expression .finish, stop⟩
  | t :: rest =>
    if t.is .branch then do
      let (predicate, ⟨tested, closer⟩) ← expression stop .lowest rest
      let (consequence, ⟨rest, shorter⟩) ← block stop tested
      match rest, shorter with
      | [], _ => .ok (.branch predicate consequence none (t.span.through consequence.span), ⟨[], by simp⟩)
      | u :: rest, shorter =>
        have behind : rest.length + 1 < tested.length := by simpa using shorter
        if u.is .otherwise then do
          let (alternative, ⟨rest, after⟩) ← block stop rest
          .ok (.branch predicate consequence (some alternative) (t.span.through alternative.span),
            ⟨rest, by simp; omega⟩)
        else
          .ok (.branch predicate consequence none (t.span.through consequence.span),
            ⟨u :: rest, by simp; omega⟩)
    else if t.is .giveBack then do
      let (e, ⟨rest, shorter⟩) ← expression stop .lowest rest
      .ok (.giveBack e (t.span.through e.span), ⟨rest, by simp; omega⟩)
    else if t.is .otherwise then .error ⟨.keyword t.value, t.span⟩
    else do
      let (e, rest) ← expression stop .lowest (t :: rest)
      .ok (.expression e, rest)
termination_by (ts.length, 2)

/-- A statement and the semicolon that may close it. -/
def statement (stop : Span) (ts : List Token) : Answer Statement ts.length := do
  let (s, ⟨rest, shorter⟩) ← bareStatement stop ts
  .ok (s, ⟨skipSemicolon rest, Nat.lt_of_le_of_lt (length_skipSemicolon_le rest) shorter⟩)
termination_by (ts.length, 3)

/-- The statements before a closing brace, and the span of the brace. -/
def blockTail (stop : Span) (ts : List Token) : Answer (List Statement × Span) ts.length :=
  match ts with
  | [] => .error (.ofDelimiter (.finish stop) .closeBlock)
  | t :: rest =>
    if t.is .closeBlock then .ok (([], t.span), ⟨rest, by simp⟩)
    else if t.kind = .finish then .error (.ofDelimiter t .closeBlock)
    else do
      let (s, ⟨rest, shorter⟩) ← statement stop (t :: rest)
      let ((ss, last), ⟨rest, after⟩) ← blockTail stop rest
      .ok ((s :: ss, last), ⟨rest, by omega⟩)
termination_by (ts.length, 4)

/-- Statements between braces. -/
def block (stop : Span) (ts : List Token) : Answer Block ts.length := do
  let (first, ⟨rest, shorter⟩) ← expect stop .openBlock ts
  let ((statements, last), ⟨rest, after⟩) ← blockTail stop rest
  .ok (⟨statements, first.span.through last⟩, ⟨rest, by omega⟩)
termination_by (ts.length, 0)
end

/-- The statements before the end, and the span of the end token. -/
def statements (stop : Span) (ts : List Token) : Except ParseError (List Statement × Span) :=
  match ts with
  | [] => .ok ([], stop)
  | t :: rest =>
    if t.kind = .finish then .ok ([], t.span)
    else do
      let (s, rest) ← statement stop (t :: rest)
      let (ss, last) ← statements stop rest.val
      .ok (s :: ss, last)
termination_by ts.length
decreasing_by exact rest.property

end KoreanScript.Parse

namespace KoreanScript.Program

/-- The span of the statements, or of the end token if there are none. -/
def spanOf (statements : List Statement) (finish : Span) : Span :=
  match statements.head?, statements.getLast? with
  | some first, some last => first.span.through last.span
  | _, _ => finish
/-- The program that tokens with an end token at `stop` behind them make up. -/
def ofTokens (ts : List Token) (stop : Span) : Except ParseError Program := do
  let (statements, finish) ← Parse.statements stop ts
  .ok ⟨statements, spanOf statements finish⟩
/-- The program that a text is. -/
def ofSource (source : String) : Except ParseError Program :=
  let scanned := Token.scan source
  ofTokens scanned.tokens scanned.finish

end KoreanScript.Program
