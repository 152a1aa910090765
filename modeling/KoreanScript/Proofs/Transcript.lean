import KoreanScript.CommandLine
import KoreanScript.Proofs.Joining
import KoreanScript.Proofs.Visibility

/-!
What a dialogue shows. The input is cut into lines in the only way there is, the lines
run one after the other in the session that the line before left, whether it failed or
not, and each shows a prompt, what it writes, and its value or its error. The dialogue
ends with the input or at the first line that is not UTF-8, behind one more prompt.
-/
namespace KoreanScript

/-- The bytes of a text in UTF-8. -/
def utf8 (source : String) : List UInt8 := source.toUTF8.data.toList

theorem fromUTF8?_utf8 (source : String) : String.fromUTF8? ⟨(utf8 source).toArray⟩ = some source := by
  rw [utf8, Array.toArray_toList, String.toUTF8_eq_toByteArray, String.fromUTF8?, dif_pos source.isValidUTF8]
  rfl
/-- Bytes that are not those of a text cannot be read. -/
theorem fromUTF8?_eq_none {bytes : List UInt8} (foreign : ∀ source, utf8 source ≠ bytes) :
    String.fromUTF8? ⟨bytes.toArray⟩ = none := by
  rw [String.fromUTF8?]
  split
  · next valid => exact absurd rfl (foreign (String.fromUTF8 _ valid))
  · rfl

/-! ### Lines -/

/-- `Lines input ls`: the input is these lines, of which each ends with its line feed, the last possibly
    without one. -/
inductive Lines : List UInt8 → List (List UInt8) → Prop
  | nil : Lines [] []
  | last {front : List UInt8} : front ≠ [] → 0x0A ∉ front → Lines front [front]
  | cons {front input : List UInt8} {ls : List (List UInt8)} :
    0x0A ∉ front → Lines input ls → Lines (front ++ 0x0A :: input) ((front ++ [0x0A]) :: ls)

/-- A line has at least its line feed or, the last, one byte in front of the end. -/
theorem Lines.ne_nil {input : List UInt8} {ls : List (List UInt8)} (lines : Lines input ls) : ∀ l ∈ ls, l ≠ [] := by
  induction lines with
  | nil => simp
  | last some _ => simpa using some
  | cons _ _ ih => simpa using ih

namespace Repl

theorem lines_split : ∀ input : List UInt8, Lines input (split input)
  | [] => .nil
  | b :: bs => by
    have rest := lines_split bs
    rw [split]
    by_cases feed : b = 0x0A
    · rw [if_pos feed, feed]
      have empty : (0x0A : UInt8) ∉ ([] : List UInt8) := List.not_mem_nil
      exact .cons empty rest
    rw [if_neg feed]
    have skip : ∀ {front : List UInt8}, 0x0A ∉ front → 0x0A ∉ b :: front := fun absent =>
      List.not_mem_cons_of_ne_of_not_mem (Ne.symm feed) absent
    generalize split bs = ls at rest
    cases rest with
    | nil => exact .last (List.cons_ne_nil b []) (skip List.not_mem_nil)
    | last _ absent => exact .last (List.cons_ne_nil b _) (skip absent)
    | cons absent rest => exact .cons (skip absent) rest
theorem split_line {front : List UInt8} (absent : 0x0A ∉ front) (input : List UInt8) :
    split (front ++ 0x0A :: input) = (front ++ [0x0A]) :: split input := by
  induction front with
  | nil => rw [List.nil_append, split, if_pos rfl, List.nil_append]
  | cons b front ih =>
    obtain ⟨other, absent⟩ := not_or.mp (mt List.mem_cons.mpr absent)
    rw [List.cons_append, split, if_neg (Ne.symm other), ih absent]
    rfl
theorem split_last {front : List UInt8} (some : front ≠ []) (absent : 0x0A ∉ front) : split front = [front] := by
  induction front with
  | nil => exact absurd rfl some
  | cons b front ih =>
    obtain ⟨other, absent⟩ := not_or.mp (mt List.mem_cons.mpr absent)
    rw [split, if_neg (Ne.symm other)]
    cases front with
    | nil => rfl
    | cons c front => rw [ih (List.cons_ne_nil c front) absent]
/-- An input has no other lines than those that it is split into. -/
theorem split_of_lines {input : List UInt8} {ls : List (List UInt8)} (lines : Lines input ls) : split input = ls := by
  induction lines with
  | nil => rfl
  | last some absent => exact split_last some absent
  | cons absent _ ih => rw [split_line absent, ih]

/-! ### What is shown -/

/-- What a dialogue shows at a time. -/
inductive Piece where
  | prompt
  /-- A line that a program writes. -/
  | written (line : String)
  | value (text : String)
  | error (text : String)

namespace Piece

def text : Piece → String
  | prompt => ">> "
  | written s | value s | error s => s ++ "\n"
def isValue : Piece → Bool
  | value _ => true
  | prompt | written _ | error _ => false
/-- All that is shown at a time, joined. -/
def texts (ps : List Piece) : String := String.join (ps.map text)
/-- What is left of it where values are not shown. -/
def kept (quiet : Bool) (ps : List Piece) : List Piece := if quiet then ps.filter (!·.isValue) else ps

theorem texts_append (ps qs : List Piece) : texts (ps ++ qs) = texts ps ++ texts qs := by
  rw [texts, List.map_append, String.join_append, texts, texts]
theorem kept_append (quiet : Bool) (ps qs : List Piece) : kept quiet (ps ++ qs) = kept quiet ps ++ kept quiet qs := by
  cases quiet with
  | true => exact List.filter_append ..
  | false => rfl
theorem kept_prompt (quiet : Bool) : kept quiet [prompt] = [prompt] := by cases quiet <;> rfl
theorem kept_written (quiet : Bool) (ls : List String) : kept quiet (ls.map written) = ls.map written := by
  cases quiet with
  | true => exact List.filter_eq_self.mpr (by simp [isValue])
  | false => rfl

end Piece

/-- A failure in words. -/
def complaint (title wanted found : String) (span : Span) : String :=
  title ++ " at " ++ span.render ++ ": expected " ++ wanted ++ ", received " ++ found
/-- An error with the stage that failed, and behind it the error of that stage alone. -/
def errorText : Error → String
  | .parse e =>
    let inner := complaint e.cause.title e.cause.expected e.cause.shown e.span
    "syntax error: " ++ inner ++ ": " ++ inner
  | .eval e =>
    let inner := complaint e.cause.title e.cause.expected e.cause.shown e.span
    "evaluation error: " ++ inner ++ ": " ++ inner
/-- What the result of a text shows: its error, or its value unless that has no text. -/
def answer : Except Error Value → List Piece
  | .error e => [.error (errorText e)]
  | .ok v => if v.render = "" then [] else [.value v.render]
/-- What texts show that run one after the other, each behind a prompt, and the prompt behind all. -/
def transcript : List Execution → List Piece
  | [] => [.prompt]
  | x :: xs => .prompt :: (x.output.map .written ++ answer x.result) ++ transcript xs

theorem texts_answer (quiet : Bool) (r : Except Error Value) :
    Piece.texts (Piece.kept quiet (answer r)) = lines (shown quiet r) := by
  cases r with
  | error e => cases quiet <;> cases e <;> rfl
  | ok v =>
    rw [answer, shown]
    by_cases empty : v.render = ""
    · have said : v.render.isEmpty := by rw [empty]; rfl
      rw [if_pos empty, said, Bool.or_true, if_pos rfl]
      cases quiet <;> rfl
    · have said : v.render.isEmpty = false := by simpa using empty
      rw [if_neg empty, said, Bool.or_false]
      cases quiet <;> rfl
theorem texts_response (quiet : Bool) (x : Execution) :
    Piece.texts (Piece.kept quiet (x.output.map .written ++ answer x.result)) = response quiet x := by
  rw [Piece.kept_append, Piece.texts_append, texts_answer, Piece.kept_written, response, lines, lines,
    List.map_append, String.join_append, Piece.texts, List.map_map]
  rfl

end Repl

/-! ### The dialogue -/

namespace Session

/-- What some texts give, run one after the other, each in the session that the one before leaves,
    whatever came of that. -/
def executeAll (depth : Nat) (s : Session) : List String → Option (List Execution)
  | [] => some []
  | source :: rest => do
    let x ← s.execute depth source
    let xs ← x.session.executeAll depth rest
    pure (x :: xs)

theorem executeAll_cons {depth : Nat} {s : Session} {source : String} {rest : List String} {xs : List Execution} :
    s.executeAll depth (source :: rest) = some xs ↔
      ∃ x ys, s.execute depth source = some x ∧ x.session.executeAll depth rest = some ys ∧ x :: ys = xs := by
  simp [executeAll, Option.bind_eq_some_iff]
/-- A text that fails behind some of its statements leaves the store in which it fails. There every name
    is bound that was bound behind those statements. -/
theorem execute_fails {depth : Nat} {s : Session} {source : String} {p q r : Program} {v : Value} {t u : Store}
    {e : EvalError} (read : Program.ofSource source = .ok r) (whole : r.statements = p.statements ++ q.statements)
    (first : p.eval depth globals s.store.silence = .done v t) (rest : q.eval depth globals t = .failed e u) :
    s.execute depth source = some ⟨.error (.eval e), u.output.toList, ⟨u⟩⟩ ∧
      ∀ f name, (t.lookup f name).isSome → (u.lookup f name).isSome := by
  constructor
  · have some : q.statements ≠ [] := by
      intro none
      rw [Program.eval, none, Statement.evalAll] at rest
      cases rest
    have fails : r.eval depth globals s.store.silence = .failed e u := by
      rw [Program.eval_append whole some, Eval.bind_apply, first]
      exact rest
    rw [execute, read]
    simp only [observe, fails]
  · intro f name known
    have run := q.eval_takes depth globals t u (by rw [rest]; rfl)
    exact (Store.Grows.of_runs run).lookup known

end Session

namespace Repl
variable {depth : Nat} {quiet : Bool} {s : Session} {rest : List (List UInt8)} {shown : String}

/-- A script that is at its end ends the dialogue, behind a prompt. -/
theorem dialogue_nil : dialogue scripted depth quiet s ⟨[], shown⟩ = (.finished, ⟨[], shown ++ ">> "⟩) := by
  rw [dialogue, repeatM_eq_of_monadTail]
  rfl
/-- A line is answered behind a prompt, and then the dialogue goes on or ends. -/
theorem dialogue_cons {line : List UInt8} (some : line ≠ []) :
    dialogue scripted depth quiet s ⟨line :: rest, shown⟩ =
      match step depth quiet s line with
      | .next text t => dialogue scripted depth quiet t ⟨rest, shown ++ ">> " ++ text⟩
      | .unreadable => (.unreadable, ⟨rest, shown ++ ">> "⟩)
      | .tooDeep => (.tooDeep, ⟨rest, shown ++ ">> "⟩) := by
  have go : line.isEmpty = false := by simpa using some
  have asked : round scripted depth quiet s ⟨line :: rest, shown⟩ =
      match step depth quiet s line with
      | .next text t => (.inl t, ⟨rest, shown ++ ">> " ++ text⟩)
      | .unreadable => (.inr .unreadable, ⟨rest, shown ++ ">> "⟩)
      | .tooDeep => (.inr .tooDeep, ⟨rest, shown ++ ">> "⟩) := by
    cases answer : step depth quiet s line <;>
      simp [round, scripted, bind, StateT.bind, modify, modifyGet, MonadStateOf.modifyGet, StateT.modifyGet, go,
        answer, prompt, pure, StateT.pure]
  rw [dialogue, repeatM_eq_of_monadTail]
  simp only [repeatM.body, bind, StateT.bind, asked]
  cases step depth quiet s line <;> rfl
/-- In front of lines at which the dialogue ends, whatever the session, it shows the transcript of the
    lines that it has run. -/
theorem dialogue_append {ending : Ending} {left : List (List UInt8)}
    (ends : ∀ s shown, dialogue scripted depth quiet s ⟨rest, shown⟩ = (ending, ⟨left, shown ++ ">> "⟩)) :
    ∀ {sources : List String} {s : Session} {xs : List Execution} {shown : String},
      (∀ source ∈ sources, utf8 source ≠ []) → s.executeAll depth sources = some xs →
      dialogue scripted depth quiet s ⟨sources.map utf8 ++ rest, shown⟩ =
        (ending, ⟨left, shown ++ Piece.texts (Piece.kept quiet (transcript xs))⟩)
  | [], s, _, shown, _, rfl => by
    rw [List.map_nil, List.nil_append, ends, transcript, Piece.kept_prompt]
    simp [Piece.texts, Piece.text]
  | source :: sources, s, xs, shown, all, finish => by
    obtain ⟨some, all⟩ := List.forall_mem_cons.mp all
    obtain ⟨x, ys, run, others, rfl⟩ := Session.executeAll_cons.mp finish
    rw [List.map_cons, List.cons_append, dialogue_cons some, step, fromUTF8?_utf8]
    simp only [run, dialogue_append ends all others]
    rw [transcript, ← List.singleton_append, List.append_assoc, Piece.kept_append, Piece.kept_append,
      Piece.texts_append, Piece.texts_append, texts_response, Piece.kept_prompt]
    simp [Piece.texts, Piece.text, String.append_assoc]

end Repl

namespace CommandLine
open Repl (Piece transcript scripted)

theorem report_unreadable : report "failed to read line" FileFault.notText.text =
    "Error: failed to read line\n\nCaused by:\n    stream did not contain valid UTF-8\n" := by decide
/-- What a dialogue leaves behind, by what it has shown and how it has ended. -/
theorem unattended_converse {depth : Nat} {quiet : Bool} {input : List UInt8} {ending : Repl.Ending}
    {left : List (List UInt8)} {text : String}
    (held : Repl.dialogue scripted depth quiet .initial ⟨Repl.split input, ""⟩ = (ending, ⟨left, text⟩)) :
    unattended input (converse scripted depth quiet) =
      match ending with
      | .finished => ⟨0, text, ""⟩
      | .unreadable =>
        ⟨1, text, "Error: failed to read line\n\nCaused by:\n    stream did not contain valid UTF-8\n"⟩
      | .tooDeep => ⟨134, text, "Error: calls nest too deep\n"⟩ := by
  simp only [unattended, converse, StateT.run, bind, StateT.bind, held]
  cases ending <;> simp [pure, StateT.pure, overflow, report_unreadable]

end CommandLine
end KoreanScript
