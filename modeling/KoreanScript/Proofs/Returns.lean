import KoreanScript.Proofs.Sites
import KoreanScript.Proofs.Stepwise

/-!
Returns that no call encloses. Where control comes to a return of a program that stands in
no function, the blocks around it and the program end there, and that is an error. No
other evaluation fails in this way: a call ends the returns of its function, so no
expression gives one, whatever functions it calls.
-/
namespace KoreanScript

section
variable (call : Closure → List Value → Eval Value)

mutual
/-- `a.Returns call f s v span t`: where `a` is evaluated in frame `f` from the store `s`, control comes
    to a return that stands in no function. That is the one at `span`; its expression has the value
    `v`, and `t` is the store that evaluating it leaves. -/
inductive Statement.Returns : Statement → FrameId → Store → Value → Span → Store → Prop
  | giveBack {e : Expr} {f : FrameId} {s t : Store} {v : Value} (span : Span) :
    e.eval call f s = .done v t → Statement.Returns (.giveBack e span) f s v span t
  | consequence {e : Expr} {b : Block} {f : FrameId} {s t u : Store} {v : Value} {span : Span} (c : Option Block) (i : Span) :
    e.eval call f s = .done (.boolean true) t → Block.Returns b f t v span u →
      Statement.Returns (.branch e b c i) f s v span u
  | alternative {e : Expr} {c : Block} {f : FrameId} {s t u : Store} {v : Value} {span : Span} (b : Block) (i : Span) :
    e.eval call f s = .done (.boolean false) t → Block.Returns c f t v span u →
      Statement.Returns (.branch e b (some c) i) f s v span u
/-- Control comes to a return in one of the statements, and to none of those behind it. -/
inductive Statement.AllReturn : List Statement → FrameId → Store → Value → Span → Store → Prop
  | first {a : Statement} {f : FrameId} {s t : Store} {v : Value} {span : Span} (as : List Statement) :
    Statement.Returns a f s v span t → Statement.AllReturn (a :: as) f s v span t
  | later {a : Statement} {as : List Statement} {f : FrameId} {s t u : Store} {v w : Value} {span : Span} :
    a.eval call f s = .done (.value w) t → Statement.AllReturn as f t v span u →
      Statement.AllReturn (a :: as) f s v span u
/-- Control comes to a return in the block, in the frame that is made for it. -/
inductive Block.Returns : Block → FrameId → Store → Value → Span → Store → Prop
  | inside {as : List Statement} {f : FrameId} {s t : Store} {v : Value} {span : Span} (i : Span) :
    Statement.AllReturn as s.next (s.push ⟨[], some f⟩) v span t → Block.Returns ⟨as, i⟩ f s v span t
end

end

section
variable {call : Closure → List Value → Eval Value}

/-! ### Signals of returns -/

mutual
/-- A statement gives the signal of a return only where control comes to that return. -/
theorem Statement.returns_of_eval {f : FrameId} {s t : Store} {v : Value} {span : Span} : ∀ a : Statement,
    a.eval call f s = .done (.giveBack v span) t → a.Returns call f s v span t
  | .branch e b none i, ends => by
    rw [Statement.eval, Eval.bind_eq_done] at ends
    obtain ⟨w, u, predicate, ends⟩ := ends
    split at ends
    · exact .consequence none i predicate (Block.returns_of_eval b ends)
    · cases ends
    · cases ends
  | .branch e b (some c) i, ends => by
    rw [Statement.eval, Eval.bind_eq_done] at ends
    obtain ⟨w, u, predicate, ends⟩ := ends
    split at ends
    · exact .consequence (some c) i predicate (Block.returns_of_eval b ends)
    · rw [Block.evalOption] at ends
      exact .alternative b i predicate (Block.returns_of_eval c ends)
    · cases ends
  | .giveBack e i, ends => by
    rw [Statement.eval, Eval.bind_eq_done] at ends
    obtain ⟨w, u, value, ends⟩ := ends
    cases ends
    exact .giveBack _ value
  | .expression e, ends => by
    rw [Statement.eval, Eval.bind_eq_done] at ends
    obtain ⟨w, u, _, ends⟩ := ends
    cases ends
theorem Statement.allReturn_of_evalAll {f : FrameId} {s t : Store} {v last : Value} {span : Span} :
    ∀ as : List Statement, Statement.evalAll call f last as s = .done (.giveBack v span) t →
      Statement.AllReturn call as f s v span t
  | [], ends => by
    rw [Statement.evalAll] at ends
    cases ends
  | a :: as, ends => by
    rw [Statement.evalAll, Eval.bind_eq_done] at ends
    obtain ⟨signal, u, first, ends⟩ := ends
    cases signal with
    | value w => exact .later first (Statement.allReturn_of_evalAll as ends)
    | giveBack w i =>
      cases ends
      exact .first as (Statement.returns_of_eval a first)
theorem Block.returns_of_eval {f : FrameId} {s t : Store} {v : Value} {span : Span} : ∀ b : Block,
    b.eval call f s = .done (.giveBack v span) t → b.Returns call f s v span t
  | ⟨as, i⟩, ends => by
    rw [Block.eval] at ends
    exact .inside i (Statement.allReturn_of_evalAll as ends)
end
mutual
/-- Where control comes to a return, the statement gives its signal and leaves the store as it is then. -/
theorem Statement.Returns.eval {a : Statement} {f : FrameId} {s t : Store} {v : Value} {span : Span} :
    a.Returns call f s v span t → a.eval call f s = .done (.giveBack v span) t
  | .giveBack _ value => by
    rw [Statement.eval, Eval.bind_eq_done]
    exact ⟨_, _, value, rfl⟩
  | .consequence _ _ predicate block => by
    rw [Statement.eval, Eval.bind_eq_done]
    exact ⟨_, _, predicate, block.eval⟩
  | .alternative _ _ predicate block => by
    rw [Statement.eval, Eval.bind_eq_done]
    refine ⟨_, _, predicate, ?_⟩
    rw [Block.evalOption]
    exact block.eval
theorem Statement.AllReturn.evalAll {as : List Statement} {f : FrameId} {s t : Store} {v last : Value} {span : Span} :
    Statement.AllReturn call as f s v span t → Statement.evalAll call f last as s = .done (.giveBack v span) t
  | .first _ returns => by
    rw [Statement.evalAll, Eval.bind_eq_done]
    exact ⟨_, _, returns.eval, rfl⟩
  | .later first rest => by
    rw [Statement.evalAll, Eval.bind_eq_done]
    exact ⟨_, _, first, rest.evalAll⟩
theorem Block.Returns.eval {b : Block} {f : FrameId} {s t : Store} {v : Value} {span : Span} :
    b.Returns call f s v span t → b.eval call f s = .done (.giveBack v span) t
  | .inside _ returns => by
    rw [Block.eval]
    exact returns.evalAll
end

/-! ### Where returns stand -/

mutual
/-- The return that control comes to is one of the statement. -/
theorem Statement.Returns.mem {a : Statement} {f : FrameId} {s t : Store} {v : Value} {span : Span} :
    a.Returns call f s v span t → span ∈ a.returns
  | .giveBack span _ => by simp [Statement.returns]
  | .consequence none _ _ block => by
    rw [Statement.returns]
    exact block.mem
  | .consequence (some _) _ _ block => by
    rw [Statement.returns]
    exact List.mem_append_left _ block.mem
  | .alternative _ _ _ block => by
    rw [Statement.returns]
    exact List.mem_append_right _ block.mem
theorem Statement.AllReturn.mem {as : List Statement} {f : FrameId} {s t : Store} {v : Value} {span : Span} :
    Statement.AllReturn call as f s v span t → span ∈ Statement.returnsAll as
  | .first _ returns => by
    rw [Statement.returnsAll]
    exact List.mem_append_left _ returns.mem
  | .later _ rest => by
    rw [Statement.returnsAll]
    exact List.mem_append_right _ rest.mem
theorem Block.Returns.mem {b : Block} {f : FrameId} {s t : Store} {v : Value} {span : Span} :
    b.Returns call f s v span t → span ∈ b.returns
  | .inside _ returns => by
    rw [Block.returns]
    exact returns.mem
end

end

/-! ### Programs -/

/-- No step fails for a return that no call encloses. -/
def Eval.neverReturns : Eval.Stepwise where
  holds _ x := ∀ s e t v, x s = .failed e t → e.cause ≠ .topLevelReturn v
  pure := by
    rintro α f a s e t v ⟨⟩
  fail := by
    rintro α f cause span other s e t v ⟨⟩
    exact other v
  tooDeep := by
    rintro α f s e t v ⟨⟩
  lookup := by
    intro f i s e t v failed
    unfold Eval.lookup at failed
    split at failed
    · cases failed
    · cases failed
      simp
  assign := by
    rintro f name w s e t v ⟨⟩
  close := by
    rintro f is b s e t v ⟨⟩
  write := by
    rintro f line s e t v ⟨⟩
  bind := by
    intro α β f x k first rest s e t v failed
    rcases Eval.bind_eq_failed.mp failed with failed | ⟨a, u, _, failed⟩
    · exact first s e t v failed
    · exact rest a u e t v failed
  activate := by
    intro β f frame k inner s e t v failed
    exact inner s.next (s.push frame) e t v failed

namespace Program

/-- A program fails for a return that no call encloses only where control comes to one of its own. -/
theorem allReturn_of_eval {p : Program} {depth : Nat} {f : FrameId} {s t : Store} {e : EvalError} {text : String}
    (failed : p.eval depth f s = .failed e t) (cause : e.cause = .topLevelReturn text) :
    ∃ v : Value, e.cause = .topLevelReturn v.render ∧
      Statement.AllReturn (Closure.apply depth) p.statements f s v e.span t := by
  rw [Program.eval, Eval.bind_eq_failed] at failed
  rcases failed with failed | ⟨signal, u, ends, failed⟩
  · have never := Eval.neverReturns.statementAll (Eval.neverReturns.application depth) f .empty p.statements
    exact absurd cause (never s e t text failed)
  · cases signal with
    | value v => cases failed
    | giveBack v i =>
      cases failed
      exact ⟨v, rfl, Statement.allReturn_of_evalAll p.statements ends⟩

/-- In whatever store a program is evaluated, if it fails for a return that no call encloses, then that
    is a return of the program that stands in no function: control has come to it, the span of the
    error is its span, and the error shows the text of its value. So a program all of whose returns
    stand in functions never fails in this way. Where control does come to such a return, the program
    fails for it, in the store that evaluating the value leaves: nothing that stands behind the return
    in the blocks around it is run. -/
theorem eval_topLevelReturn (p : Program) (depth : Nat) (f : FrameId) (s : Store) :
    (∀ e t text, p.eval depth f s = .failed e t → e.cause = .topLevelReturn text →
      ∃ v : Value, e.cause.received = "리턴 " ++ v.render ∧ e.span ∈ Statement.returnsAll p.statements ∧
        Statement.AllReturn (Closure.apply depth) p.statements f s v e.span t) ∧
    (Statement.returnsAll p.statements = [] →
      ∀ e t text, p.eval depth f s = .failed e t → e.cause ≠ .topLevelReturn text) ∧
    ∀ v span t, Statement.AllReturn (Closure.apply depth) p.statements f s v span t →
      p.eval depth f s = .failed ⟨.topLevelReturn v.render, span⟩ t := by
  refine ⟨?_, ?_, ?_⟩
  · intro e t text failed cause
    obtain ⟨v, found, returns⟩ := allReturn_of_eval failed cause
    refine ⟨v, ?_, returns.mem, returns⟩
    rw [found]
    rfl
  · intro none e t text failed cause
    obtain ⟨v, _, returns⟩ := allReturn_of_eval failed cause
    have member := returns.mem
    rw [none] at member
    exact absurd member List.not_mem_nil
  · intro v span t returns
    rw [Program.eval, Eval.bind_eq_failed]
    exact .inr ⟨_, t, returns.evalAll, rfl⟩

/-- A return in a block, in front of a statement that is not run; and one in a function, which is called. -/
theorem eval_topLevelReturn_block :
    let i : Span := ⟨⟨0, 0⟩, ⟨0, 0⟩⟩
    let j : Span := ⟨⟨1, 2⟩, ⟨1, 7⟩⟩
    let back : Block := ⟨[.giveBack (.string "1" i) j], i⟩
    let x : Statement := .expression (.assignment ⟨"x", i⟩ (.string "2" i) i)
    let p : Program := ⟨[.branch (.boolean true i) back none i, x], i⟩
    let q : Program := ⟨[.expression (.call (.function [] back i) [] i), .expression (.call (.string "3" i) [] i)], i⟩
    let s : Store := ⟨#[⟨[], none⟩], 0, #[]⟩
    let t : Store := ⟨s.frames.push ⟨[], some 0⟩, 0, #[]⟩
    p.eval 1 0 s = .failed ⟨.topLevelReturn "1", j⟩ t ∧
      (∃ v : Value, (EvalError.Cause.topLevelReturn "1").received = "리턴 " ++ v.render ∧
        j ∈ Statement.returnsAll p.statements ∧ Statement.AllReturn (Closure.apply 1) p.statements 0 s v j t) ∧
      ∃ e u, q.eval 1 0 s = .failed e u ∧ e.cause ≠ .topLevelReturn "1" := by
  intro i j back x p q s t
  have reached : Statement.AllReturn (Closure.apply 1) p.statements 0 s (.string "1") j t := by
    refine .first _ (.consequence none i (t := s) (by rw [Expr.eval]; rfl) (.inside i (.first [] (.giveBack j ?_))))
    rw [Expr.eval]
    rfl
  have fails : p.eval 1 0 s = .failed ⟨.topLevelReturn "1", j⟩ t := (eval_topLevelReturn p 1 0 s).2.2 _ j t reached
  have other : q.eval 1 0 s = .failed ⟨.callTarget .string, i⟩ ⟨s.frames.push ⟨[], some 0⟩, 1, #[]⟩ := by
    rfl
  exact ⟨fails, (eval_topLevelReturn p 1 0 s).1 _ t _ fails rfl, _, _, other,
    (eval_topLevelReturn q 1 0 s).2.1 rfl _ _ _ other⟩

end Program
end KoreanScript
