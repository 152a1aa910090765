import KoreanScript.Proofs.Lowering
import KoreanScript.Proofs.NodeText

/-!
Texts run one after the other. A text whose last statement is closed by a semicolon can
be joined with another one by a line feed: the tokens, the statements and the run of the
whole are those of the first and then those of the second, whose rows count on from
there. So a session in which both run one after the other does the same as one in which
the whole runs.
-/
namespace KoreanScript

/-! ### The text -/

/-- What ends in front of a text also ends if a blank and more stand behind that text. -/
theorem TokenKind.Ends.before {k : TokenKind} {run rest : List Char} (ends : k.Ends run rest)
    (closed : k ≠ .illegalString) {c : Char} (blank : Text.isBlank c) (cs : List Char) :
    k.Ends run (rest ++ c :: cs) := by
  cases rest with
  | nil =>
    have apart : c ≠ '=' := by
      rintro rfl
      revert blank
      decide
    have boundary := Boundary.blank blank cs c rfl
    cases k <;> simp_all [Ends]
  | cons d rest =>
    cases k with
    | illegalString => exact absurd rfl closed
    | _ => exact ends

/-- Behind a text whose last string is closed, a blank and another text can follow. -/
theorem Cut.append {opened : Bool} {p : Position} {cs : List Char} {ts : List Token} (cut : Cut opened p cs ts)
    (closed : ∀ t ∈ ts.getLast?, t.kind ≠ .illegalString) {c : Char} (blank : Text.isBlank c) {ds : List Char}
    {us : List Token} (behind : Cut false ((p.afterAll cs).after c) ds us) :
    Cut opened p (cs ++ c :: ds) (ts ++ us) := by
  induction cut with
  | nil opened p => exact .blank opened blank behind
  | blank opened first _ ih => exact .blank opened first (ih closed behind)
  | @lexeme opened p l rest ts fits inner ih =>
    -- A string without a second quote takes all the rest, so its token would be the last one.
    have closes : l.kind ≠ .illegalString := by
      intro kind
      have ends := fits.ends
      rw [kind] at ends
      obtain rfl : rest = [] := ends
      have none := inner.tokens_eq
      rw [Token.scanFrom] at none
      exact closed (l.toToken p) (by rw [← none]; rfl) kind
    have later : ∀ t ∈ ts.getLast?, t.kind ≠ .illegalString := fun t last => closed t (List.mem_getLast?_cons last)
    rw [Position.afterAll_append] at behind
    rw [List.append_assoc, List.cons_append]
    exact .lexeme ⟨fits.spells, fits.ends.before closes blank ds, fits.marker⟩ (ih later behind)

/-- A text that a semicolon ends, a line feed and another text have the tokens of the first and then
    those of the second, that many rows further down. -/
theorem scan_join {a : String} (b : String) (closed : ∀ t ∈ (Token.scan a).tokens.getLast?, t.is .semicolon) :
    ∃ us, (Token.scan (a ++ "\n" ++ b)).tokens = (Token.scan a).tokens ++ us ∧
      Token.AllAlike (.lowered (a.toList.count '\n' + 1)) us (Token.scan b).tokens := by
  have text : (a ++ "\n" ++ b).toList = a.toList ++ '\n' :: b.toList := by simp
  have place : (Position.origin.afterAll a.toList).after '\n' = ⟨a.toList.count '\n' + 1, 0⟩ := by
    rw [Position.afterAll_origin]
    rfl
  obtain ⟨us, tokens⟩ : ∃ us, us = (Token.scanFrom false ⟨a.toList.count '\n' + 1, 0⟩ b.toList).tokens := ⟨_, rfl⟩
  have second := Cut.scanFrom false ⟨a.toList.count '\n' + 1, 0⟩ b.toList
  rw [← tokens] at second
  refine ⟨us, ?_, ?_⟩
  · have first := Cut.scanFrom false .origin a.toList
    have joined := first.append (fun t last => by simp [Token.kind_of_is (closed t last), Mark.semicolon])
      (c := '\n') (by decide) (by rwa [place])
    rw [← text] at joined
    exact joined.tokens_eq
  · obtain ⟨vs, alone, alike⟩ := second.moved (Position.beyond_origin _).symm
    rw [Likeness.moved_row] at alike
    rwa [Token.scan, alone.tokens_eq]

/-! ### The grammar -/

namespace Grammar

/-- Tokens the last of which is no semicolon. -/
def Unclosed (ts : List Token) : Prop := ∃ t ∈ ts.getLast?, ¬ t.is .semicolon

theorem Unclosed.append {us : List Token} (unclosed : Unclosed us) (ts : List Token) : Unclosed (ts ++ us) := by
  obtain ⟨t, last, other⟩ := unclosed
  exact ⟨t, List.mem_getLast?_append_of_mem_getLast? last, other⟩
theorem Unclosed.kind {t : Token} (other : t.kind ≠ .separator) : Unclosed [t] :=
  ⟨t, rfl, fun found => other (Token.kind_of_is found)⟩
theorem Unclosed.mark {t : Token} {m : Mark} (found : t.is m) (other : m.kind ≠ .separator) : Unclosed [t] :=
  .kind (by rwa [Token.kind_of_is found])

theorem Elements.unclosed {close : Mark} {ts : List Token} {es : List Expr} {s : Span}
    (elements : Elements close ts es s) (other : close.kind ≠ .separator) : Unclosed ts := by
  obtain ⟨us, t, rfl, closes, _⟩ := elements.closes
  exact (Unclosed.mark closes other).append us
theorem Entries.unclosed {ts : List Token} {es : List (Expr × Expr)} {s : Span} (entries : Entries ts es s) :
    Unclosed ts := by
  obtain ⟨us, t, rfl, closes, _⟩ := entries.closes
  exact (Unclosed.mark closes (by decide)).append us
theorem OfBlock.unclosed {ts : List Token} {b : Block} (block : OfBlock ts b) : Unclosed ts := by
  cases block with
  | @mk ts t _ _ _ _ closes => exact ((Unclosed.mark closes (by decide)).append ts).append [t]
theorem Derives.unclosed : ∀ {l : Level} {ts : List Token} {e r : Expr}, Derives l ts e r → Unclosed ts
  | _, _, _, _, .assign (t := t) _ _ value => (value.unclosed.append [t]).append _
  | _, _, _, _, .compare (t := t) _ _ _ right | _, _, _, _, .add (t := t) _ _ _ right
  | _, _, _, _, .multiply (t := t) _ _ _ right => (right.unclosed.append [t]).append _
  | _, _, _, _, .ofComparison inner | _, _, _, _, .ofSum inner | _, _, _, _, .ofProduct inner
  | _, _, _, _, .ofPrefixed inner | _, _, _, _, .ofCall inner | _, _, _, _, .ofPrimary inner => inner.unclosed
  | _, _, _, _, .lead (t := t) _ operand => operand.unclosed.append [t]
  | _, _, _, _, .call (t := t) _ _ _ arguments => ((arguments.unclosed (by decide)).append [t]).append _
  | _, _, _, _, .number kind _ | _, _, _, _, .boolean kind _ | _, _, _, _, .string kind
  | _, _, _, _, .identifier kind => .kind (by rw [kind]; decide)
  | _, _, _, _, .group (t := t) _ _ closes => ((Unclosed.mark closes (by decide)).append _).append [t]
  | _, _, _, _, .function (t := t) (u := u) _ _ _ body => (body.unclosed.append _).append [t, u]
  | _, _, _, _, .list (t := t) _ elements => (elements.unclosed (by decide)).append [t]
  | _, _, _, _, .table (t := t) (u := u) _ _ entries => entries.unclosed.append [t, u]
/-- No semicolon belongs to the statement that it closes. -/
theorem Bare.unclosed {ts : List Token} {a : Statement} {o : Option Expr} (bare : Bare ts a o) : Unclosed ts := by
  cases bare with
  | @branch _ _ t _ _ _ _ _ block => exact (block.unclosed.append _).append [t]
  | @branchElse _ _ _ t u _ _ _ _ _ _ _ _ other => exact (((other.unclosed.append [u]).append _).append _).append [t]
  | @giveBack _ t _ _ _ value => exact value.unclosed.append [t]
  | expression value => exact value.unclosed
/-- Behind a semicolon a statement is open for nothing. -/
theorem Closing.closed_of_semicolon {ts : List Token} {a : Statement} {o : Option Expr} (closing : Closing ts a o)
    (closed : ∀ t ∈ ts.getLast?, t.is .semicolon) : o = none := by
  cases closing with
  | closed => rfl
  | bare bare =>
    obtain ⟨t, last, other⟩ := bare.unclosed
    exact absurd (closed t last) other
/-- Behind a semicolon any statements can follow. -/
theorem Statements.append {us : List Token} {bs : List Statement} (second : Statements us bs) :
    ∀ {ts : List Token} {as : List Statement}, Statements ts as → (∀ t ∈ ts.getLast?, t.is .semicolon) →
      Statements (ts ++ us) (as ++ bs)
  | _, _, .nil, _ => second
  | _, _, @Statements.cons ts vs a o as first rest apart, closed => by
    rw [List.append_assoc]
    -- What stands behind the first statement is new only if the first is also the last.
    cases vs with
    | nil =>
      rw [List.append_nil] at closed
      exact .cons first (second.append rest (by simp)) (by simp [first.closed_of_semicolon closed])
    | cons v vs =>
      have later : ∀ t ∈ (v :: vs).getLast?, t.is .semicolon :=
        fun t last => closed t (List.mem_getLast?_append_of_mem_getLast? last)
      exact .cons first (second.append rest later) apart

end Grammar

namespace Program
open Grammar

/-- A text that a semicolon ends, a line feed and another text are the statements of the first and
    then those of the second, that many rows further down. -/
theorem ofSource_append {a b : String} {p q : Program} (first : ofSource a = .ok p) (second : ofSource b = .ok q)
    (closed : ∀ t ∈ (Token.scan a).tokens.getLast?, t.is .semicolon) :
    ∃ r ms, ofSource (a ++ "\n" ++ b) = .ok r ∧ r.statements = p.statements ++ ms ∧
      Statement.AllAlike (.lowered (a.toList.count '\n' + 1)) ms q.statements := by
  obtain ⟨us, tokens, alike⟩ := scan_join b closed
  have endless := kind_ne_finish_of_scan (a ++ "\n" ++ b)
  have joins : (Likeness.lowered (a.toList.count '\n' + 1)).Joins := by
    rw [← Likeness.moved_row]
    exact Likeness.moved_joins _
  have agree := ofTokens_agree joins alike (s := (Token.scan b).finish.lower (a.toList.count '\n' + 1)) rfl
  rw [show ofTokens (Token.scan b).tokens (Token.scan b).finish = .ok q from second] at agree
  -- The statements of the second text are read off its own tokens first, and only then put behind the others.
  generalize read : ofTokens us _ = answer at agree
  cases agree with
  | @ok m _ related =>
    have derived := (ofTokens_iff_derives (fun t inside => endless t (by simp [tokens, inside])) m).mp read
    have whole := derived.1.append ((ofTokens_iff_derives (kind_ne_finish_of_scan a) p).mp first).1 closed
    rw [← tokens] at whole
    let r : Program := ⟨p.statements ++ m.statements,
      spanOf (p.statements ++ m.statements) (Token.scan (a ++ "\n" ++ b)).finish⟩
    exact ⟨r, m.statements, (ofTokens_iff_derives endless r).mpr ⟨whole, rfl⟩, rfl, related.statements⟩

end Program

/-! ### The run -/

/-- Statements run one after the other up to the first return. -/
theorem Statement.evalAll_append (call : Closure → List Value → Eval Value) (f : FrameId) (as bs : List Statement)
    (last : Value) : evalAll call f last (as ++ bs) = (do
      match ← evalAll call f last as with
      | .value v => evalAll call f v bs
      | .giveBack v span => pure (.giveBack v span)) := by
  induction as generalizing last with
  | nil =>
    rw [List.nil_append, evalAll, pure_bind]
  | cons a as ih =>
    rw [List.cons_append, evalAll, evalAll, bind_assoc]
    congr
    funext signal
    cases signal with
    | value v => exact ih v
    | giveBack v span => rw [pure_bind]
/-- What stands in front of statements does not count if there are any. -/
theorem Statement.evalAll_last (call : Closure → List Value → Eval Value) (f : FrameId) {as : List Statement}
    (some : as ≠ []) (v w : Value) : evalAll call f v as = evalAll call f w as := by
  cases as with
  | nil => exact absurd rfl some
  | cons a as => rw [evalAll, evalAll]
/-- A program of statements and more statements behind them runs like two programs. -/
theorem Program.eval_append {p q r : Program} (whole : r.statements = p.statements ++ q.statements)
    (some : q.statements ≠ []) (depth : Nat) (f : FrameId) :
    r.eval depth f = (do
      let _ ← p.eval depth f
      q.eval depth f) := by
  simp only [eval, whole, Statement.evalAll_append, bind_assoc]
  congr
  funext signal
  cases signal with
  | value v => simp only [pure_bind, Statement.evalAll_last _ f some v .empty]
  | giveBack v span => rfl

namespace Session

/-- Two texts run one after the other do what they do joined by a line feed, if a semicolon ends the
    first and there is a statement in the second. Where the first fails, the whole does just the same;
    otherwise the whole goes on as the second does, except that the text of the second stands further
    down. -/
theorem execute_append {a b : String} {p q : Program} (first : Program.ofSource a = .ok p)
    (second : Program.ofSource b = .ok q) (closed : ∀ t ∈ (Token.scan a).tokens.getLast?, t.is .semicolon)
    (some : q.statements ≠ []) :
    (∃ r ms, Program.ofSource (a ++ "\n" ++ b) = .ok r ∧ r.statements = p.statements ++ ms ∧
      Statement.AllAlike (.lowered (a.toList.count '\n' + 1)) ms q.statements) ∧
    ∀ (s : Session) (depth : Nat), match s.execute depth a with
      | none => s.execute depth (a ++ "\n" ++ b) = none
      | .some x => match x.result with
        | .error _ => s.execute depth (a ++ "\n" ++ b) = .some x
        | .ok _ => Option.Rel (Execution.LoweredAfter (a.toList.count '\n' + 1) x.output)
          (s.execute depth (a ++ "\n" ++ b)) (x.session.execute depth b) := by
  obtain ⟨r, ms, read, whole, alike⟩ := Program.ofSource_append first second closed
  refine ⟨⟨r, ms, read, whole, alike⟩, fun s depth => ?_⟩
  have more : ms ≠ [] := by
    rintro rfl
    generalize q.statements = bs at alike some
    cases alike
    exact some rfl
  have runs := Program.eval_append (q := ⟨ms, q.span⟩) whole more depth globals
  simp only [execute, first, second, read, observe_eq, runs, Eval.bind_apply]
  cases p.eval depth globals s.store.silence with
  | done v t => exact Program.eval_lowered alike depth t
  | failed e t => rfl
  | tooDeep => rfl

set_option maxRecDepth 100000 in
/-- A text that binds a name, and one that writes what it means. -/
theorem execute_append_write : ∃ x y z, initial.execute 1 "가 = 'x';" = some x ∧ x.session.execute 1 "쓰기(가)" = some z ∧
    z.output = ["x"] ∧ initial.execute 1 ("가 = 'x';" ++ "\n" ++ "쓰기(가)") = some y ∧ y.LoweredAfter 1 x.output z := by
  let x : Execution := ⟨.ok (.string "x"), [], ⟨⟨#[⟨[("가", .string "x")], none⟩], 0, #[]⟩⟩⟩
  let z : Execution := ⟨.ok .empty, ["x"], ⟨⟨#[⟨[("가", .string "x")], none⟩], 0, #["x"]⟩⟩⟩
  have first : Program.ofSource "가 = 'x';" = .ok ⟨[.expression (.assignment ⟨"가", ⟨⟨0, 0⟩, ⟨0, 0⟩⟩⟩
      (.string "x" ⟨⟨0, 4⟩, ⟨0, 6⟩⟩) ⟨⟨0, 0⟩, ⟨0, 6⟩⟩)], ⟨⟨0, 0⟩, ⟨0, 6⟩⟩⟩ := by cbv
  have second : Program.ofSource "쓰기(가)" = .ok ⟨[.expression (.call (.identifier ⟨"쓰기", ⟨⟨0, 0⟩, ⟨0, 1⟩⟩⟩)
      [.identifier ⟨"가", ⟨⟨0, 3⟩, ⟨0, 3⟩⟩⟩] ⟨⟨0, 0⟩, ⟨0, 4⟩⟩)], ⟨⟨0, 0⟩, ⟨0, 4⟩⟩⟩ := by cbv
  have runs : initial.execute 1 "가 = 'x';" = some x := by
    rw [execute, first]
    cbv
  have continues : x.session.execute 1 "쓰기(가)" = some z := by
    rw [execute, second]
    cbv
  have closed : (Token.scan "가 = 'x';").tokens.getLast? = some ⟨.separator, ";", ⟨⟨0, 7⟩, ⟨0, 7⟩⟩⟩ := by cbv
  have ends := (execute_append first second (by simp [closed, Token.is, Mark.semicolon]) (by simp)).2 initial 1
  rw [runs] at ends
  change Option.Rel (Execution.LoweredAfter 1 []) _ (x.session.execute 1 "쓰기(가)") at ends
  rw [continues] at ends
  generalize initial.execute 1 ("가 = 'x';" ++ "\n" ++ "쓰기(가)") = answer at ends
  cases ends with
  | some lowered => exact ⟨x, _, z, runs, continues, rfl, rfl, lowered⟩

end Session
end KoreanScript
