import Mathlib.Data.List.Forall2
import KoreanScript.Proofs.Marks
import KoreanScript.Proofs.Nodes
import KoreanScript.Proofs.ShortestReads

/-!
The canonical text of a tree has the marks that the tree is written with. Every
construct ends where what stands behind it is a blank or a sign, so its marks can
be split off; and none begins with an equals sign, which an operator in front of
it would take.
-/
namespace KoreanScript
open Token (marksFrom)

/-- Lists of marks with commas between them. -/
def Mark.commas (mss : List (List Mark)) : List Mark := [Mark.comma].intercalate mss
/-- The marks of names. -/
def Identifier.mark (i : Identifier) : Mark := ⟨.identifier, i.name⟩

mutual
/-- The marks that an expression is written with. -/
def Expr.marks : Expr → List Mark
  | .identifier i => [i.mark]
  | .number x _ => [⟨.number, Number.render x⟩]
  | .boolean b _ => [⟨.boolean, Word.ofBool b⟩]
  | .string s _ => [⟨.string, s⟩]
  | .prefixed op e _ => .openGroup :: .ofPrefix op :: (e.marks ++ [.closeGroup])
  | .binary op l r _ => .openGroup :: (l.marks ++ .ofInfix op :: (r.marks ++ [.closeGroup]))
  | .function is b _ =>
    .function :: .openGroup :: (Mark.commas (is.map fun i => [i.mark]) ++ .closeGroup :: b.marks)
  | .call e es _ => e.marks ++ .openGroup :: (Mark.commas (Expr.marksAll es) ++ [.closeGroup])
  | .assignment i e _ => .openGroup :: i.mark :: .assignment :: (e.marks ++ [.closeGroup])
  | .list es _ => .openList :: (Mark.commas (Expr.marksAll es) ++ [.closeList])
  | .table es _ => .openList :: .tableMarker :: (Mark.commas (Expr.marksEntries es) ++ [.closeList])
def Expr.marksAll : List Expr → List (List Mark)
  | [] => []
  | e :: es => e.marks :: Expr.marksAll es
def Expr.marksEntries : List (Expr × Expr) → List (List Mark)
  | [] => []
  | (k, e) :: es => (k.marks ++ .colon :: e.marks) :: Expr.marksEntries es
def Statement.marks : Statement → List Mark
  | .branch e b none _ => .branch :: (e.marks ++ b.marks)
  | .branch e b (some c) _ => .branch :: (e.marks ++ (b.marks ++ .otherwise :: c.marks))
  | .giveBack e _ => .giveBack :: e.marks
  | .expression e => e.marks
def Statement.marksAll : List Statement → List (List Mark)
  | [] => []
  | a :: as => a.marks :: Statement.marksAll as
def Block.marks : Block → List Mark
  | ⟨as, _⟩ => .openBlock :: ((Statement.marksAll as).flatten ++ [.closeBlock])
end

/-! ### Texts that are read as given marks -/

/-- A text that has the given marks wherever it stands, if it ends where it does; and
    that no operator in front of it takes anything from. -/
structure Reads (text : String) (ms : List Mark) : Prop where
  apart (rest : List Char) : (text.toList ++ rest).head? ≠ some '='
  marks (opened : Bool) {rest : List Char} (ends : Boundary rest) :
    marksFrom opened (text.toList ++ rest) = ms ++ marksFrom false rest

theorem Boundary.delimiter {c : Char} {m : Mark} (member : (c, m) ∈ Token.delimiters) (rest : List Char) :
    Boundary (c :: rest) := by
  have signs : ∀ d ∈ Token.delimiters, d.1 ∈ Lexeme.signs := by decide
  exact .sign (signs _ member) rest
theorem Boundary.space (rest : List Char) : Boundary (' ' :: rest) := .blank (by decide) rest

namespace Reads

variable {text : String} {ms : List Mark} {texts : List String} {mss : List (List Mark)}

/-- Items with commas between them, up to the delimiter that closes them. -/
theorem joined (items : List.Forall₂ Reads texts mss) {c : Char} {m : Mark}
    (close : (c, m) ∈ Token.delimiters) (opened : Bool) (rest : List Char) :
    marksFrom opened ((", ".intercalate texts).toList ++ c :: rest) =
      Mark.commas mss ++ m :: marksFrom false rest := by
  have sep : ", ".toList = [',', ' '] := rfl
  rw [String.toList_intercalate, Mark.commas, sep]
  induction items generalizing opened with
  | nil => exact Token.marksFrom_delimiter close
  | @cons text ms texts mss first others ih =>
    cases others with
    | nil =>
      simp only [List.map_cons, List.map_nil, List.intercalate_singleton]
      rw [first.marks opened (.delimiter close rest), Token.marksFrom_delimiter close]
    | cons second others =>
      simp only [List.map_cons, List.intercalate_cons_cons, List.append_assoc, List.cons_append,
        List.nil_append] at ih ⊢
      rw [first.marks opened (.sign (by decide) _), Token.marksFrom_comma, Token.marksFrom_blank (by decide), ih]
/-- Statements with blanks between them. -/
theorem spaced (items : List.Forall₂ Reads texts mss) {s : String} {c : Char} (blank : Text.isBlank c)
    (single : s.toList = [c]) {rest : List Char} (ends : Boundary rest) :
    marksFrom false ((s.intercalate texts).toList ++ rest) = mss.flatten ++ marksFrom false rest := by
  rw [String.toList_intercalate, single]
  induction items with
  | nil => rfl
  | @cons text ms texts mss first others ih =>
    cases others with
    | nil =>
      simp only [List.map_cons, List.map_nil, List.intercalate_singleton, List.flatten_cons, List.flatten_nil,
        List.append_nil]
      exact first.marks false ends
    | cons second others =>
      simp only [List.map_cons, List.intercalate_cons_cons, List.append_assoc, List.cons_append,
        List.nil_append, List.flatten_cons] at ih ⊢
      rw [first.marks false (.blank blank _), Token.marksFrom_blank blank, ih]
theorem of_cons {c : Char} {cs : List Char} (split : text.toList = c :: cs) (other : c ≠ '=')
    (marks : ∀ (opened : Bool) (rest : List Char), Boundary rest →
      marksFrom opened (c :: (cs ++ rest)) = ms ++ marksFrom false rest) : Reads text ms := by
  constructor
  · intro rest
    rw [split]
    rintro ⟨⟩
    exact other rfl
  · intro opened rest ends
    rw [split]
    exact marks opened rest ends
theorem name {i : Identifier} (name : IsName i.name) : Reads i.name [i.mark] := by
  obtain ⟨c, cs, split, starts, _⟩ := name.starts
  refine of_cons split ?_ ?_
  · rintro rfl
    revert starts
    decide +kernel
  · intro opened rest ends
    rw [← List.cons_append, ← split]
    exact Token.marksFrom_name name ends
theorem number {x : Float} (decimal : ∃ d e, x = Decimal.nearest d e) (finite : x.isFinite) :
    Reads (Number.render x) [⟨.number, Number.render x⟩] := by
  obtain ⟨d, e, rfl⟩ := decimal
  obtain ⟨c, cs, text, digit, inside, _⟩ := Decimal.read?_render finite
  rw [text]
  refine of_cons String.toList_ofList ?_ ?_
  · rintro rfl
    revert digit
    decide
  · intro opened rest ends
    exact Token.marksFrom_number digit inside ends
theorem boolean (b : Bool) : Reads (Word.ofBool b) [⟨.boolean, Word.ofBool b⟩] := by
  constructor
  · intro rest
    cases b
    all_goals exact fun same => absurd (Option.some.inj same) (by decide)
  · intro opened rest ends
    exact Token.marksFrom_boolean b ends
theorem string {s : String} (apart : '\'' ∉ s.toList) : Reads ("'" ++ s ++ "'") [⟨.string, s⟩] := by
  have split : ("'" ++ s ++ "'").toList = '\'' :: (s.toList ++ ['\'']) := by
    simp only [String.toList_append]
    rfl
  refine of_cons split (by decide) ?_
  intro opened rest _
  rw [List.append_assoc]
  exact Token.marksFrom_string apart
theorem prefixed (op : PrefixOperator) (operand : Reads text ms) :
    Reads ("(" ++ op.lexeme ++ text ++ ")") (.openGroup :: .ofPrefix op :: (ms ++ [.closeGroup])) := by
  have split : ("(" ++ op.lexeme ++ text ++ ")").toList = '(' :: (op.lexeme.toList ++ (text.toList ++ [')'])) := by
    simp only [String.toList_append, List.append_assoc]
    rfl
  refine of_cons split (by decide) ?_
  intro opened rest _
  simp only [List.append_assoc, List.cons_append, List.nil_append]
  rw [Token.marksFrom_openGroup, Token.marksFrom_prefix op (operand.apart _),
    operand.marks false (.sign (by decide) rest), Token.marksFrom_closeGroup]
theorem binary (op : InfixOperator) {text' : String} {ms' : List Mark} (left : Reads text ms)
    (right : Reads text' ms') :
    Reads ("(" ++ text ++ " " ++ op.lexeme ++ " " ++ text' ++ ")")
      (.openGroup :: (ms ++ .ofInfix op :: (ms' ++ [.closeGroup]))) := by
  have split : ("(" ++ text ++ " " ++ op.lexeme ++ " " ++ text' ++ ")").toList =
      '(' :: (text.toList ++ ' ' :: (op.lexeme.toList ++ ' ' :: (text'.toList ++ [')']))) := by
    simp only [String.toList_append, List.append_assoc]
    rfl
  refine of_cons split (by decide) ?_
  intro opened rest _
  simp only [List.append_assoc, List.cons_append, List.nil_append]
  rw [Token.marksFrom_openGroup, left.marks false (.space _), Token.marksFrom_blank (by decide),
    Token.marksFrom_infix op (by simp), Token.marksFrom_blank (by decide),
    right.marks false (.sign (by decide) rest), Token.marksFrom_closeGroup]
theorem assignment {i : Identifier} (named : IsName i.name) (value : Reads text ms) :
    Reads ("(" ++ i.name ++ " = " ++ text ++ ")")
      (.openGroup :: i.mark :: .assignment :: (ms ++ [.closeGroup])) := by
  have split : ("(" ++ i.name ++ " = " ++ text ++ ")").toList =
      '(' :: (i.name.toList ++ ' ' :: '=' :: ' ' :: (text.toList ++ [')'])) := by
    simp only [String.toList_append, List.append_assoc]
    rfl
  refine of_cons split (by decide) ?_
  intro opened rest _
  simp only [List.append_assoc, List.cons_append, List.nil_append]
  rw [Token.marksFrom_openGroup, (name named).marks false (.space _), Token.marksFrom_blank (by decide),
    Token.marksFrom_assignment (by simp), Token.marksFrom_blank (by decide),
    value.marks false (.sign (by decide) rest), Token.marksFrom_closeGroup]
  rfl
theorem call (callee : Reads text ms) (arguments : List.Forall₂ Reads texts mss) :
    Reads (text ++ "(" ++ ", ".intercalate texts ++ ")")
      (ms ++ .openGroup :: (Mark.commas mss ++ [.closeGroup])) := by
  have split : (text ++ "(" ++ ", ".intercalate texts ++ ")").toList =
      text.toList ++ '(' :: ((", ".intercalate texts).toList ++ [')']) := by
    simp only [String.toList_append, List.append_assoc]
    rfl
  constructor
  · intro rest
    rw [split, List.append_assoc]
    exact callee.apart _
  · intro opened rest _
    rw [split]
    simp only [List.append_assoc, List.cons_append, List.nil_append]
    rw [callee.marks opened (.sign (by decide) _), Token.marksFrom_openGroup,
      joined arguments (m := .closeGroup) (by decide)]
theorem list (elements : List.Forall₂ Reads texts mss) :
    Reads ("[" ++ ", ".intercalate texts ++ "]") (.openList :: (Mark.commas mss ++ [.closeList])) := by
  have split : ("[" ++ ", ".intercalate texts ++ "]").toList =
      '[' :: ((", ".intercalate texts).toList ++ [']']) := by
    simp only [String.toList_append, List.append_assoc]
    rfl
  refine of_cons split (by decide) ?_
  intro opened rest _
  simp only [List.append_assoc, List.cons_append, List.nil_append]
  rw [Token.marksFrom_openList, joined elements (m := .closeList) (by decide)]
/-- An entry of a table. -/
theorem entry {text' : String} {ms' : List Mark} (key : Reads text ms) (value : Reads text' ms') :
    Reads (text ++ ": " ++ text') (ms ++ .colon :: ms') := by
  have split : (text ++ ": " ++ text').toList = text.toList ++ ':' :: ' ' :: text'.toList := by
    simp only [String.toList_append, List.append_assoc]
    rfl
  constructor
  · intro rest
    rw [split, List.append_assoc]
    exact key.apart _
  · intro opened rest ends
    rw [split]
    simp only [List.append_assoc, List.cons_append]
    rw [key.marks opened (.sign (by decide) _), Token.marksFrom_colon, Token.marksFrom_blank (by decide),
      value.marks false ends]
theorem joined_apart (items : List.Forall₂ Reads texts mss) {c : Char} (other : c ≠ '=') (rest : List Char) :
    ((", ".intercalate texts).toList ++ c :: rest).head? ≠ some '=' := by
  rw [String.toList_intercalate]
  cases items with
  | nil => simpa using other
  | cons first others =>
    cases others with
    | nil =>
      simp only [List.map_cons, List.map_nil, List.intercalate_singleton]
      exact first.apart _
    | cons _ _ =>
      simp only [List.map_cons, List.intercalate_cons_cons, List.append_assoc]
      exact first.apart _
theorem table (entries : List.Forall₂ Reads texts mss) :
    Reads ("[" ++ Mark.tableMarker.lexeme ++ ", ".intercalate texts ++ "]")
      (.openList :: .tableMarker :: (Mark.commas mss ++ [.closeList])) := by
  have split : ("[" ++ Mark.tableMarker.lexeme ++ ", ".intercalate texts ++ "]").toList =
      '[' :: '!' :: ((", ".intercalate texts).toList ++ [']']) := by
    simp only [String.toList_append, List.append_assoc]
    rfl
  refine of_cons split (by decide) ?_
  intro opened rest _
  simp only [List.append_assoc, List.cons_append, List.nil_append]
  rw [Token.marksFrom_openList, Token.marksFrom_tableMarker (joined_apart entries (by decide) rest),
    joined entries (m := .closeList) (by decide)]
theorem block (statements : List.Forall₂ Reads texts mss) :
    Reads (if texts = [] then "\x7b \x7d" else "\x7b " ++ " ".intercalate texts ++ " \x7d")
      (.openBlock :: (mss.flatten ++ [.closeBlock])) := by
  by_cases none : texts = []
  · cases statements with
    | cons _ _ => cases none
    | nil =>
      refine of_cons (show "\x7b \x7d".toList = '\x7b' :: [' ', '\x7d'] from rfl) (by decide) ?_
      intro opened rest _
      simp only [List.cons_append, List.nil_append]
      rw [Token.marksFrom_openBlock, Token.marksFrom_blank (by decide), Token.marksFrom_closeBlock]
      rfl
  · have split : ("\x7b " ++ " ".intercalate texts ++ " \x7d").toList =
        '\x7b' :: ' ' :: ((" ".intercalate texts).toList ++ [' ', '\x7d']) := by
      simp only [String.toList_append, List.append_assoc]
      rfl
    rw [if_neg none]
    refine of_cons split (by decide) ?_
    intro opened rest _
    simp only [List.append_assoc, List.cons_append, List.nil_append]
    rw [Token.marksFrom_openBlock, Token.marksFrom_blank (by decide),
      spaced statements (by decide) rfl (.space _), Token.marksFrom_blank (by decide),
      Token.marksFrom_closeBlock]
/-- A keyword, a blank and what stands behind it. -/
theorem keyword {w : String} (known : w ∈ Word.keywords) (behind : Reads text ms) :
    Reads (w ++ " " ++ text) (⟨.keyword, w⟩ :: ms) := by
  have split : (w ++ " " ++ text).toList = w.toList ++ ' ' :: text.toList := by
    simp only [String.toList_append, List.append_assoc]
    rfl
  constructor
  · intro rest
    rw [split, List.append_assoc]
    simp only [Word.keywords, List.mem_cons, List.not_mem_nil, or_false] at known
    rcases known with rfl | rfl | rfl | rfl
    all_goals exact fun same => absurd (Option.some.inj same) (by decide)
  · intro opened rest ends
    rw [split]
    simp only [List.append_assoc, List.cons_append]
    rw [Token.marksFrom_keyword known (.space _), Token.marksFrom_blank (by decide), behind.marks false ends]
/-- Two parts with a blank between them. -/
theorem follow {text' : String} {ms' : List Mark} (first : Reads text ms) (behind : Reads text' ms') :
    Reads (text ++ " " ++ text') (ms ++ ms') := by
  have split : (text ++ " " ++ text').toList = text.toList ++ ' ' :: text'.toList := by
    simp only [String.toList_append, List.append_assoc]
    rfl
  constructor
  · intro rest
    rw [split, List.append_assoc]
    exact first.apart _
  · intro opened rest ends
    rw [split]
    simp only [List.append_assoc, List.cons_append]
    rw [first.marks opened (.space _), Token.marksFrom_blank (by decide), behind.marks false ends]
theorem function (parameters : List.Forall₂ Reads texts mss) (body : Reads text ms) :
    Reads (Word.function ++ "(" ++ ", ".intercalate texts ++ ") " ++ text)
      (.function :: .openGroup :: (Mark.commas mss ++ .closeGroup :: ms)) := by
  have split : (Word.function ++ "(" ++ ", ".intercalate texts ++ ") " ++ text).toList =
      Word.function.toList ++ '(' :: ((", ".intercalate texts).toList ++ ')' :: ' ' :: text.toList) := by
    simp only [String.toList_append, List.append_assoc]
    rfl
  constructor
  · intro rest
    rw [split, List.append_assoc]
    exact fun same => absurd (Option.some.inj same) (by decide)
  · intro opened rest ends
    rw [split]
    simp only [List.append_assoc, List.cons_append]
    rw [Token.marksFrom_keyword (by decide) (.sign (by decide) _), Token.marksFrom_openGroup,
      joined parameters (m := .closeGroup) (by decide), Token.marksFrom_blank (by decide), body.marks false ends]
    rfl

end Reads

/-! ### Canonical texts -/

/-- What canonical texts can show: no quote in a string, and no infinite number. -/
def Expr.Plain : Expr → Prop
  | .string s _ => '\'' ∉ s.toList
  | .number x _ => x.isFinite
  | _ => True

/-- Every node in a list can be shown. -/
def Showable (nodes : List Expr) : Prop := ∀ n ∈ nodes, n.Lawful ∧ n.Plain

theorem showable_cons {e : Expr} {es : List Expr} :
    Showable (e :: es) ↔ (e.Lawful ∧ e.Plain) ∧ Showable es :=
  List.forall_mem_cons
theorem showable_append {ds es : List Expr} : Showable (ds ++ es) ↔ Showable ds ∧ Showable es :=
  List.forall_mem_append
theorem Reads.names {is : List Identifier} (names : ∀ i ∈ is, IsName i.name) :
    List.Forall₂ Reads (is.map Identifier.name) (is.map fun i => [i.mark]) := by
  induction is with
  | nil => exact .nil
  | cons i is ih =>
    obtain ⟨first, rest⟩ := List.forall_mem_cons.mp names
    exact .cons (.name first) (ih rest)

mutual
/-- The canonical text of an expression is read as the marks that it is written with. -/
theorem Expr.reads : ∀ e : Expr, Showable e.nodes → Reads e.render e.marks
  | .identifier i, showable => by
    rw [Expr.nodes, showable_cons] at showable
    rw [Expr.render, Expr.marks]
    exact .name showable.1.1
  | .number x _, showable => by
    rw [Expr.nodes, showable_cons] at showable
    rw [Expr.render, Expr.marks]
    exact .number showable.1.1 showable.1.2
  | .boolean b _, _ => by
    rw [Expr.render, Expr.marks]
    exact .boolean b
  | .string s _, showable => by
    rw [Expr.nodes, showable_cons] at showable
    rw [Expr.render, Expr.marks]
    exact .string showable.1.2
  | .prefixed op e _, showable => by
    rw [Expr.nodes, showable_cons] at showable
    rw [Expr.render, Expr.marks]
    exact .prefixed op (Expr.reads e showable.2)
  | .binary op l r _, showable => by
    rw [Expr.nodes, showable_cons, showable_append] at showable
    rw [Expr.render, Expr.marks]
    exact .binary op (Expr.reads l showable.2.1) (Expr.reads r showable.2.2)
  | .function is b _, showable => by
    rw [Expr.nodes, showable_cons] at showable
    rw [Expr.render, Expr.marks]
    exact .function (Reads.names showable.1.1) (Block.reads b showable.2)
  | .call e es _, showable => by
    rw [Expr.nodes, showable_cons, showable_append] at showable
    rw [Expr.render, Expr.marks]
    exact .call (Expr.reads e showable.2.1) (Expr.reads_all es showable.2.2)
  | .assignment i e _, showable => by
    rw [Expr.nodes, showable_cons] at showable
    rw [Expr.render, Expr.marks]
    exact .assignment showable.1.1 (Expr.reads e showable.2)
  | .list es _, showable => by
    rw [Expr.nodes, showable_cons] at showable
    rw [Expr.render, Expr.marks]
    exact .list (Expr.reads_all es showable.2)
  | .table es _, showable => by
    rw [Expr.nodes, showable_cons] at showable
    rw [Expr.render, Expr.marks]
    exact .table (Expr.reads_entries es showable.2)
theorem Expr.reads_all : ∀ es : List Expr, Showable (Expr.nodesAll es) →
    List.Forall₂ Reads (Expr.renderAll es) (Expr.marksAll es)
  | [], _ => .nil
  | e :: es, showable => by
    rw [Expr.nodesAll, showable_append] at showable
    rw [Expr.renderAll, Expr.marksAll]
    exact .cons (Expr.reads e showable.1) (Expr.reads_all es showable.2)
theorem Expr.reads_entries : ∀ es : List (Expr × Expr), Showable (Expr.nodesEntries es) →
    List.Forall₂ Reads (Expr.renderEntries es) (Expr.marksEntries es)
  | [], _ => .nil
  | (k, e) :: es, showable => by
    rw [Expr.nodesEntries, showable_append, showable_append] at showable
    rw [Expr.renderEntries, Expr.marksEntries]
    exact .cons (.entry (Expr.reads k showable.1.1) (Expr.reads e showable.1.2))
      (Expr.reads_entries es showable.2)
theorem Statement.reads : ∀ a : Statement, Showable a.nodes → Reads a.render a.marks
  | .branch e b none _, showable => by
    rw [Statement.nodes, showable_append] at showable
    rw [Statement.render, Statement.marks]
    exact .follow (.keyword (by decide) (Expr.reads e showable.1)) (Block.reads b showable.2)
  | .branch e b (some c) _, showable => by
    rw [Statement.nodes, showable_append, showable_append] at showable
    have before := Reads.follow (.keyword (w := Word.branch) (by decide) (Expr.reads e showable.1.1))
      (Block.reads b showable.1.2)
    have behind := Reads.keyword (w := Word.otherwise) (by decide) (Block.reads c showable.2)
    have whole := before.follow behind
    simp only [← String.append_assoc, List.append_assoc] at whole
    rw [Statement.render, Statement.marks]
    exact whole
  | .giveBack e _, showable => by
    rw [Statement.nodes] at showable
    rw [Statement.render, Statement.marks]
    exact .keyword (by decide) (Expr.reads e showable)
  | .expression e, showable => by
    rw [Statement.nodes] at showable
    rw [Statement.render, Statement.marks]
    exact Expr.reads e showable
theorem Statement.reads_all : ∀ as : List Statement, Showable (Statement.nodesAll as) →
    List.Forall₂ Reads (Statement.renderAll as) (Statement.marksAll as)
  | [], _ => .nil
  | a :: as, showable => by
    rw [Statement.nodesAll, showable_append] at showable
    rw [Statement.renderAll, Statement.marksAll]
    exact .cons (Statement.reads a showable.1) (Statement.reads_all as showable.2)
theorem Block.reads : ∀ b : Block, Showable b.nodes → Reads b.render b.marks
  | ⟨as, _⟩, showable => by
    have none : as.isEmpty ↔ Statement.renderAll as = [] := by
      cases as <;> simp [Statement.renderAll]
    rw [Block.nodes] at showable
    rw [Block.render, Block.marks]
    simp only [none]
    exact .block (Statement.reads_all as showable)
end

/-- The canonical text of a program has the marks of its statements. -/
theorem Program.marks_render {p : Program} (showable : Showable p.nodes) :
    (Token.scan p.render).tokens.map Token.mark = (Statement.marksAll p.statements).flatten := by
  have read := Reads.spaced (Statement.reads_all p.statements showable) (s := "\n") (c := '\n') (by decide)
    rfl .nil
  rwa [Token.marksFrom_nil, List.append_nil, List.append_nil] at read

end KoreanScript
