import KoreanScript.Proofs.Absence
import KoreanScript.Proofs.Lowering

/-!
Bindings that nothing reads. Where a name stands neither in a program nor in any function
that the program can come to, it makes no difference what the name is bound to, and in
which frame. The name of a builtin may stand wherever a call names the builtin by it, so
no binding changes what such a call does.
-/
namespace KoreanScript

namespace Store

variable {s t start : Store} {home f : FrameId} {n : String} {v : Value}

/-- The stores are the same but that in `t` frame `f` binds `n` to `v`. -/
structure Rebound (f : FrameId) (n : String) (v : Value) (s t : Store) : Prop where
  size : t.frames.size = s.frames.size
  functions : t.functions = s.functions
  outer (g : FrameId) : t.frames[g]?.map Frame.outer = s.frames[g]?.map Frame.outer
  own (g : FrameId) (name : String) : t.own? g name = if g = f ∧ name = n then some v else s.own? g name

/-- A binding that only the right store has is there afterwards. -/
theorem Beside.rebound (beside : start.Beside home f [n] (fun _ => some v) s t) : s.Rebound f n v t := by
  refine ⟨beside.same.size, beside.same.functions, beside.same.outer, fun g name => ?_⟩
  split
  · next both =>
    rw [both.1, both.2]
    exact beside.own (List.mem_singleton_self n)
  · next other => exact beside.same.own (by rwa [List.mem_singleton])
/-- Where evaluation starts without the binding and with it, the stores are so. -/
theorem Unread.beside_bind (unread : start.Unread home n) (present : f < start.frames.size) (v : Value) :
    start.Beside home f [n] (fun _ => some v) start.silence (start.bind f n v).silence := by
  have alone : ∀ m ∈ [n], start.Unread home m := List.forall_mem_singleton.mpr unread
  refine ((Unread.beside alone f).bind_right present (List.mem_singleton_self n) v fun m among => ?_).silence
  rw [if_pos (List.mem_singleton.mp among)]

end Store

/-- What running a text has given, and what it has given where frame `f` bound `n` to `v` before:
    the same, and this binding is there afterwards. -/
structure Execution.Rebound (f : FrameId) (n : String) (v : Value) (x y : Execution) : Prop where
  result : y.result = x.result
  output : y.output = x.output
  store : x.session.store.Rebound f n v y.session.store

/-- A program that lacks a name does the same whatever the name is bound to before. -/
theorem Program.eval_rebound {p : Program} {n : String} (absent : n ∉ p.names) {s : Store} {home : FrameId}
    (unread : s.Unread home n) {f : FrameId} (present : f < s.frames.size) (v : Value) (depth : Nat) :
    Option.Rel (Execution.Rebound f n v) (p.eval depth home s.silence).execution
      (p.eval depth home (s.bind f n v).silence).execution := by
  have ends := Simulation.program_evals (S := s.apart home f [n] (fun _ => some v) present) depth (f := home)
    ⟨rfl, .inl .here⟩ rfl (Statement.allAlike_lacking p.statements (List.disjoint_singleton.mpr absent)) _ _
    (unread.beside_bind present v)
  revert ends
  cases p.eval depth home s.silence <;> cases p.eval depth home (s.bind f n v).silence <;>
    rintro (⟨values, beside⟩ | ⟨cause, ⟨_, rfl, same⟩, beside⟩ | _)
  · obtain ⟨rfl, _⟩ := values.same
    exact .some ⟨rfl, congrArg Array.toList beside.same.output, beside.rebound⟩
  · cases same
    exact .some ⟨rfl, congrArg Array.toList beside.same.output, beside.rebound⟩
  · exact .none

namespace Session

/-- The session with a binding of its own. -/
def bind (s : Session) (f : FrameId) (n : String) (v : Value) : Session := ⟨s.store.bind f n v⟩

/-- If a name stands neither in a program nor in a function that the program can come to from the
    globals, then whatever the name is bound to before the program runs, and in which frame, the
    program gives the same, writes the same and leaves the same bindings but for this one. The name
    of a builtin may stand where a call names it, as such a call runs the builtin on its arguments,
    whatever the name is bound to. -/
theorem unread_binding {s : Session} {n : String} {p : Program} (absent : n ∉ p.names)
    (unread : s.store.Unread globals n) {f : FrameId} (present : f < s.store.frames.size) (v : Value) (depth : Nat) :
    Option.Rel (Execution.Rebound f n v) (s.observe (p.eval depth globals))
      ((s.bind f n v).observe (p.eval depth globals)) ∧
    (∀ source, Program.ofSource source = .ok p →
      Option.Rel (Execution.Rebound f n v) (s.execute depth source) ((s.bind f n v).execute depth source)) ∧
    ∀ (b : Builtin) (i : Identifier) (es : List Expr) (span : Span) (g : FrameId), i.name = b.name →
      (Expr.call (.identifier i) es span).eval (Closure.apply depth) g =
        Expr.evalAll (Closure.apply depth) g es >>= fun vs => b.apply vs span := by
  have observed : Option.Rel (Execution.Rebound f n v) (s.observe (p.eval depth globals))
      ((s.bind f n v).observe (p.eval depth globals)) := by
    rw [observe_eq, observe_eq]
    exact Program.eval_rebound absent unread present v depth
  refine ⟨observed, fun source read => ?_, fun b i es span g named => ?_⟩
  · rw [execute, execute, read]
    exact observed
  · rw [Expr.eval, Expr.builtin?, named, Builtin.ofName?_name]

set_option maxRecDepth 100000 in
/-- A function that writes what it is given goes on to do so when the name by which it calls the
    builtin is bound to a text. -/
theorem unread_binding_write :
    let c : Closure := ⟨0, [⟨"나", ⟨⟨0, 7⟩, ⟨0, 7⟩⟩⟩], ⟨[.expression (.call (.identifier ⟨"쓰기", ⟨⟨0, 12⟩, ⟨0, 13⟩⟩⟩)
      [.identifier ⟨"나", ⟨⟨0, 15⟩, ⟨0, 15⟩⟩⟩] ⟨⟨0, 12⟩, ⟨0, 16⟩⟩)], ⟨⟨0, 10⟩, ⟨0, 18⟩⟩⟩, globals⟩
    let s : Session := ⟨⟨#[⟨[("가", .function c)], none⟩], 1, #[]⟩⟩
    ∃ x y, s.execute 1 "가('y')" = some x ∧ (s.bind globals "쓰기" (.string "x")).execute 1 "가('y')" = some y ∧
      x.output = ["y"] ∧ x.Rebound globals "쓰기" (.string "x") y := by
  intro c s
  have read : Program.ofSource "가('y')" = .ok ⟨[.expression (.call (.identifier ⟨"가", ⟨⟨0, 0⟩, ⟨0, 0⟩⟩⟩)
      [.string "y" ⟨⟨0, 2⟩, ⟨0, 4⟩⟩] ⟨⟨0, 0⟩, ⟨0, 5⟩⟩)], ⟨⟨0, 0⟩, ⟨0, 5⟩⟩⟩ := by cbv
  have runs : s.execute 1 "가('y')" = some ⟨.ok .empty, ["y"],
      ⟨⟨#[⟨[("가", .function c)], none⟩, ⟨[("나", .string "y")], some globals⟩], 1, #["y"]⟩⟩⟩ := by
    rw [execute, read]
    cbv
  have unread : s.store.Unread globals "쓰기" := by
    have alone : ∀ g, s.store.Sees globals g → g = globals := by
      intro g sees
      induction sees with
      | here => rfl
      | outer _ here around ih =>
        rw [ih] at here
        cases here
        cases around
      | bound _ here found inside ih =>
        rw [ih] at here
        cases here
        obtain ⟨name, member⟩ := Entries.mem_of_get? found
        cases List.mem_singleton.mp member
        rw [List.mem_singleton.mp inside]
    intro g frame name v d sees here found inside
    rw [alone g sees] at here
    cases here
    obtain ⟨name, member⟩ := Entries.mem_of_get? found
    cases List.mem_singleton.mp member
    rw [List.mem_singleton.mp inside]
    decide
  have present : globals < s.store.frames.size := by decide
  have ends := (unread_binding (by decide) unread present (.string "x") 1).2.1 _ read
  rw [runs] at ends
  generalize (s.bind globals "쓰기" (.string "x")).execute 1 "가('y')" = answer at ends
  cases ends with
  | some rebound => exact ⟨_, _, runs, rfl, rfl, rebound⟩

end Session
end KoreanScript
