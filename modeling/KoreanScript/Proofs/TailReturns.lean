import KoreanScript.Evaluation

/-!
Returning the last value. A call gives the value of the last statement of its function
whether that is returned or not. So a function does the same when its last statement is
made a return of its value, and where this is a branch, those that stand last in its blocks.
-/
namespace KoreanScript

section
variable (place : Expr → Span)

mutual
/-- The statement with its value returned: an expression is returned, and in a branch what the blocks
    end with. A return for the expression `e` is said to stand at `place e`. -/
def Statement.returned : Statement → Statement
  | .branch e b none span => .branch e b.returned none span
  | .branch e b (some c) span => .branch e b.returned (some c.returned) span
  | .giveBack e span => .giveBack e span
  | .expression e => .giveBack e (place e)
/-- The statements with the value of the last one returned. -/
def Statement.returnedLast : List Statement → List Statement
  | [] => []
  | [a] => [a.returned]
  | a :: b :: as => a :: Statement.returnedLast (b :: as)
def Block.returned : Block → Block
  | ⟨as, span⟩ => ⟨Statement.returnedLast as, span⟩
end

end

section
variable (place : Expr → Span) (call : Closure → List Value → Eval Value)

/-! ### The same result -/

mutual
theorem Statement.result_returned (f : FrameId) : ∀ a : Statement,
    Signal.result <$> (a.returned place).eval call f = Signal.result <$> a.eval call f
  | .branch e b none _ => by
    rw [Statement.returned, Statement.eval, Statement.eval, map_bind, map_bind]
    congr
    funext v
    split
    · exact Block.result_returned f b
    · rfl
    · rfl
  | .branch e b (some c) _ => by
    rw [Statement.returned, Statement.eval, Statement.eval, map_bind, map_bind]
    congr
    funext v
    split
    · exact Block.result_returned f b
    · rw [Block.evalOption, Block.evalOption]
      exact Block.result_returned f c
    · rfl
  | .giveBack e span => by rw [Statement.returned]
  | .expression e => by
    rw [Statement.returned, Statement.eval, Statement.eval, map_bind, map_bind]
    rfl
theorem Statement.result_returnedLast (f : FrameId) : ∀ (last : Value) (as : List Statement),
    Signal.result <$> Statement.evalAll call f last (Statement.returnedLast place as) =
      Signal.result <$> Statement.evalAll call f last as
  | _, [] => by rw [Statement.returnedLast]
  | last, [a] => by
    rw [Statement.returnedLast, Statement.evalAll_singleton, Statement.evalAll_singleton]
    exact Statement.result_returned f a
  | last, a :: b :: as => by
    rw [Statement.returnedLast, Statement.evalAll, Statement.evalAll, map_bind, map_bind]
    congr
    funext signal
    cases signal with
    | value v => exact Statement.result_returnedLast f v (b :: as)
    | giveBack v span => rfl
theorem Block.result_returned (f : FrameId) : ∀ b : Block,
    Signal.result <$> (b.returned place).eval call f = Signal.result <$> b.eval call f
  | ⟨as, _⟩ => by
    rw [Block.returned, Block.eval, Block.eval, map_bind, map_bind]
    congr
    funext g
    exact Statement.result_returnedLast g .empty as
end

/-! ### What is not returned -/

mutual
/-- A statement with its value returned has no other value than the empty one. -/
theorem Statement.value_of_returned {f : FrameId} {s t : Store} {v : Value} : ∀ a : Statement,
    (a.returned place).eval call f s = .done (.value v) t → v = .empty
  | .branch e b none _, ends => by
    rw [Statement.returned, Statement.eval, Eval.bind_eq_done] at ends
    obtain ⟨w, u, _, ends⟩ := ends
    split at ends
    · exact Block.value_of_returned b ends
    · cases ends
      rfl
    · cases ends
  | .branch e b (some c) _, ends => by
    rw [Statement.returned, Statement.eval, Eval.bind_eq_done] at ends
    obtain ⟨w, u, _, ends⟩ := ends
    split at ends
    · exact Block.value_of_returned b ends
    · rw [Block.evalOption] at ends
      exact Block.value_of_returned c ends
    · cases ends
  | .giveBack e _, ends | .expression e, ends => by
    rw [Statement.returned, Statement.eval, Eval.bind_eq_done] at ends
    obtain ⟨w, u, _, ends⟩ := ends
    cases ends
theorem Statement.value_of_returnedLast {f : FrameId} {s t : Store} {v last : Value} : ∀ as : List Statement,
    Statement.evalAll call f last (Statement.returnedLast place as) s = .done (.value v) t → as = [] ∧ v = last ∨ v = .empty
  | [], ends => by
    rw [Statement.returnedLast, Statement.evalAll] at ends
    cases ends
    exact .inl ⟨rfl, rfl⟩
  | [a], ends => by
    rw [Statement.returnedLast, Statement.evalAll_singleton] at ends
    exact .inr (Statement.value_of_returned a ends)
  | a :: b :: as, ends => by
    rw [Statement.returnedLast, Statement.evalAll, Eval.bind_eq_done] at ends
    obtain ⟨signal, u, _, ends⟩ := ends
    cases signal with
    | value w => exact .inr ((Statement.value_of_returnedLast (b :: as) ends).resolve_left (by simp))
    | giveBack w span => cases ends
theorem Block.value_of_returned {f : FrameId} {s t : Store} {v : Value} : ∀ b : Block,
    (b.returned place).eval call f s = .done (.value v) t → v = .empty
  | ⟨as, _⟩, ends => by
    rw [Block.returned, Block.eval, Eval.bind_eq_done] at ends
    obtain ⟨g, u, _, ends⟩ := ends
    exact (Statement.value_of_returnedLast as ends).elim And.right id
end

end

/-- A function does the same where the value of its body is returned: from every store and for all
    arguments it ends with the same value or error, after the same lines and with the same in every
    frame. So a body changed in this way leaves nothing to fall off its end but the empty value. -/
theorem Closure.apply_returned (place : Expr → Span) (c : Closure) (mark depth : Nat) (arguments : List Value) :
    Closure.apply depth ⟨mark, c.parameters, c.body.returned place, c.scope⟩ arguments =
        Closure.apply depth c arguments ∧
      ∀ (call : Closure → List Value → Eval Value) (f : FrameId) (s t : Store) (v : Value),
        Statement.evalAll call f .empty (c.body.returned place).statements s = .done (.value v) t → v = .empty := by
  have body : (c.body.returned place).statements = Statement.returnedLast place c.body.statements := by
    cases c.body
    rw [Block.returned]
  constructor
  · cases depth with
    | zero => rfl
    | succ depth =>
      rw [Closure.apply, Closure.apply, body]
      refine congrArg (Eval.enter (c.frame arguments) >>= ·) (funext fun f => ?_)
      exact Statement.result_returnedLast place (Closure.apply depth) f .empty c.body.statements
  · intro call f s t v ends
    rw [body] at ends
    exact (Statement.value_of_returnedLast place call c.body.statements ends).elim And.right id

end KoreanScript
