import KoreanScript.Tree.Parse

/-!
The grammar of programs over tokens, with the tree of every derivation. The
operators stand on levels, each of which says where its operands lie; that
`=` and the comparisons associate to the right and the arithmetic operators to
the left is which side stays on the level.

A statement need not be closed, so two statements may stand next to each other
like the parts of one. The longest match decides: an open statement is followed
by nothing that would go on with it (`Continues`). That depends on the operand
at its right end, which the derivations of expressions carry.
-/
namespace KoreanScript

namespace Mark

def ofPrefix (op : PrefixOperator) : Mark := ⟨.operator, op.lexeme⟩
def ofInfix (op : InfixOperator) : Mark := ⟨.operator, op.lexeme⟩

end Mark

namespace Grammar

/-- The levels of expressions, from the loosest operators to the operands. -/
inductive Level where
  | expression | comparison | sum | product | prefixed | call | primary
deriving DecidableEq

def comparisons : List InfixOperator := [.equal, .unequal, .less, .greater, .atMost, .atLeast]
def summatives : List InfixOperator := [.plus, .minus]
def productives : List InfixOperator := [.times, .divided]

/-- The target of an assignment: a name in any number of parentheses. -/
inductive Target : List Token → Identifier → Prop
  | name {t : Token} : t.kind = .identifier → Target [t] ⟨t.value, t.span⟩
  | group {t u : Token} {ts : List Token} {i : Identifier} :
    t.is .openGroup → Target ts i → u.is .closeGroup →
      Target (t :: (ts ++ [u])) ⟨i.name, t.span.through u.span⟩

/-- Names with commas between them, and the mark that closes them. -/
inductive Names (close : Mark) : List Token → List Identifier → Span → Prop
  | last {t u : Token} : t.kind = .identifier → u.is close → Names close [t, u] [⟨t.value, t.span⟩] u.span
  | more {t u : Token} {ts : List Token} {is : List Identifier} {s : Span} :
    t.kind = .identifier → u.is .comma → Names close ts is s →
      Names close (t :: u :: ts) (⟨t.value, t.span⟩ :: is) s

/-- The parameters of a function, from behind the parenthesis that opens them. -/
inductive Parameters : List Token → List Identifier → Prop
  | none {t : Token} : t.is .closeGroup → Parameters [t] []
  | some {ts : List Token} {is : List Identifier} {s : Span} :
    Names .closeGroup ts is s → Parameters ts is

/-- Whether a token directly behind an open statement goes on with it, where `operand`
    stands at the right end of the statement. -/
def Continues (operand : Expr) (t : Token) : Prop :=
  t.is (.ofInfix .plus) ∨ t.is (.ofInfix .minus) ∨ (t.is .openGroup ∧ operand.isCallable)

mutual
/-- `Derives l ts e r`: the tokens `ts` make up the expression `e` on level `l`, and `r` is
    the operand at its right end. -/
inductive Derives : Level → List Token → Expr → Expr → Prop
  | assign {ts us : List Token} {t : Token} {i : Identifier} {e r : Expr} :
    Target ts i → t.is .assignment → Derives .expression us e r →
      Derives .expression (ts ++ t :: us) (.assignment i e (i.span.through e.span)) r
  | ofComparison {ts : List Token} {e r : Expr} :
    Derives .comparison ts e r → Derives .expression ts e r
  | compare {ts us : List Token} {t : Token} {op : InfixOperator} {d e q r : Expr} :
    Derives .sum ts d q → op ∈ comparisons → t.is (.ofInfix op) → Derives .comparison us e r →
      Derives .comparison (ts ++ t :: us) (.binary op d e (d.span.through e.span)) r
  | ofSum {ts : List Token} {e r : Expr} : Derives .sum ts e r → Derives .comparison ts e r
  | add {ts us : List Token} {t : Token} {op : InfixOperator} {d e q r : Expr} :
    Derives .sum ts d q → op ∈ summatives → t.is (.ofInfix op) → Derives .product us e r →
      Derives .sum (ts ++ t :: us) (.binary op d e (d.span.through e.span)) r
  | ofProduct {ts : List Token} {e r : Expr} : Derives .product ts e r → Derives .sum ts e r
  | multiply {ts us : List Token} {t : Token} {op : InfixOperator} {d e q r : Expr} :
    Derives .product ts d q → op ∈ productives → t.is (.ofInfix op) → Derives .prefixed us e r →
      Derives .product (ts ++ t :: us) (.binary op d e (d.span.through e.span)) r
  | ofPrefixed {ts : List Token} {e r : Expr} :
    Derives .prefixed ts e r → Derives .product ts e r
  | lead {ts : List Token} {t : Token} {op : PrefixOperator} {e r : Expr} :
    t.is (.ofPrefix op) → Derives .prefixed ts e r →
      Derives .prefixed (t :: ts) (.prefixed op e (t.span.through e.span)) r
  | ofCall {ts : List Token} {e r : Expr} : Derives .call ts e r → Derives .prefixed ts e r
  | call {ts us : List Token} {t : Token} {f q : Expr} {es : List Expr} {s : Span} :
    Derives .call ts f q → f.isCallable → t.is .openGroup → Elements .closeGroup us es s →
      Derives .call (ts ++ t :: us) (.call f es (f.span.through s)) (.call f es (f.span.through s))
  | ofPrimary {ts : List Token} {e r : Expr} : Derives .primary ts e r → Derives .call ts e r
  | number {t : Token} {x : Float} :
    t.kind = .number → Decimal.read? t.value = some x →
      Derives .primary [t] (.number x t.span) (.number x t.span)
  | boolean {t : Token} {b : Bool} :
    t.kind = .boolean → t.value = Word.ofBool b →
      Derives .primary [t] (.boolean b t.span) (.boolean b t.span)
  | string {t : Token} :
    t.kind = .string → Derives .primary [t] (.string t.value t.span) (.string t.value t.span)
  | identifier {t : Token} :
    t.kind = .identifier →
      Derives .primary [t] (.identifier ⟨t.value, t.span⟩) (.identifier ⟨t.value, t.span⟩)
  | group {ts : List Token} {t u : Token} {e r : Expr} :
    t.is .openGroup → Derives .expression ts e r → u.is .closeGroup →
      Derives .primary (t :: (ts ++ [u])) (e.withSpan (t.span.through u.span))
        (e.withSpan (t.span.through u.span))
  | function {ts us : List Token} {t u : Token} {is : List Identifier} {b : Block} :
    t.is .function → u.is .openGroup → Parameters ts is → OfBlock us b →
      Derives .primary (t :: u :: (ts ++ us)) (.function is b (t.span.through b.span))
        (.function is b (t.span.through b.span))
  | list {ts : List Token} {t : Token} {es : List Expr} {s : Span} :
    t.is .openList → Elements .closeList ts es s →
      Derives .primary (t :: ts) (.list es (t.span.through s)) (.list es (t.span.through s))
  | table {ts : List Token} {t u : Token} {es : List (Expr × Expr)} {s : Span} :
    t.is .openList → u.is .tableMarker → Entries ts es s →
      Derives .primary (t :: u :: ts) (.table es (t.span.through s)) (.table es (t.span.through s))
/-- Any number of expressions with commas between them, and the mark that closes them. -/
inductive Elements : Mark → List Token → List Expr → Span → Prop
  | none {close : Mark} {t : Token} : t.is close → Elements close [t] [] t.span
  | some {close : Mark} {ts : List Token} {es : List Expr} {s : Span} :
    Items close ts es s → Elements close ts es s
/-- At least one expression, commas between them, and the mark that closes them. -/
inductive Items : Mark → List Token → List Expr → Span → Prop
  | last {close : Mark} {ts : List Token} {t : Token} {e r : Expr} :
    Derives .expression ts e r → t.is close → Items close (ts ++ [t]) [e] t.span
  | more {close : Mark} {ts us : List Token} {t : Token} {e r : Expr} {es : List Expr} {s : Span} :
    Derives .expression ts e r → t.is .comma → Items close us es s →
      Items close (ts ++ t :: us) (e :: es) s
/-- The entries of a table and the bracket that closes them. -/
inductive Entries : List Token → List (Expr × Expr) → Span → Prop
  | none {t : Token} : t.is .closeList → Entries [t] [] t.span
  | some {ts : List Token} {es : List (Expr × Expr)} {s : Span} : Pairs ts es s → Entries ts es s
/-- At least one entry, commas between them, and the bracket that closes them. -/
inductive Pairs : List Token → List (Expr × Expr) → Span → Prop
  | last {ts us : List Token} {t u : Token} {k v q r : Expr} :
    Derives .expression ts k q → t.is .colon → Derives .expression us v r → u.is .closeList →
      Pairs (ts ++ t :: (us ++ [u])) [(k, v)] u.span
  | more {ts us vs : List Token} {t u : Token} {k v q r : Expr} {es : List (Expr × Expr)} {s : Span} :
    Derives .expression ts k q → t.is .colon → Derives .expression us v r → u.is .comma →
      Pairs vs es s → Pairs (ts ++ t :: (us ++ u :: vs)) ((k, v) :: es) s
/-- Statements between braces. -/
inductive OfBlock : List Token → Block → Prop
  | mk {ts : List Token} {t u : Token} {ss : List Statement} :
    t.is .openBlock → Statements ts ss → u.is .closeBlock →
      OfBlock (t :: (ts ++ [u])) ⟨ss, t.span.through u.span⟩
/-- A statement without the semicolon that may close it, and the operand at its right end
    if it ends in an expression. -/
inductive Bare : List Token → Statement → Option Expr → Prop
  | branch {ts us : List Token} {t : Token} {p r : Expr} {b : Block} :
    t.is .branch → Derives .expression ts p r → OfBlock us b →
      Bare (t :: (ts ++ us)) (.branch p b none (t.span.through b.span)) none
  | branchElse {ts us vs : List Token} {t u : Token} {p r : Expr} {b c : Block} :
    t.is .branch → Derives .expression ts p r → OfBlock us b → u.is .otherwise → OfBlock vs c →
      Bare (t :: (ts ++ (us ++ u :: vs))) (.branch p b (some c) (t.span.through c.span)) none
  | giveBack {ts : List Token} {t : Token} {e r : Expr} :
    t.is .giveBack → Derives .expression ts e r →
      Bare (t :: ts) (.giveBack e (t.span.through e.span)) (some r)
  | expression {ts : List Token} {e r : Expr} :
    Derives .expression ts e r → Bare ts (.expression e) (some r)
/-- A statement, and the operand at its right end if it is open there. -/
inductive Closing : List Token → Statement → Option Expr → Prop
  | closed {ts : List Token} {t : Token} {s : Statement} {o : Option Expr} :
    Bare ts s o → t.is .semicolon → Closing (ts ++ [t]) s none
  | bare {ts : List Token} {s : Statement} {o : Option Expr} : Bare ts s o → Closing ts s o
/-- Statements one after the other, none of which the next one continues. -/
inductive Statements : List Token → List Statement → Prop
  | nil : Statements [] []
  | cons {ts us : List Token} {s : Statement} {o : Option Expr} {ss : List Statement} :
    Closing ts s o → Statements us ss → (∀ r ∈ o, ∀ t ∈ us.head?, ¬ Continues r t) →
      Statements (ts ++ us) (s :: ss)
end

/-- The program that tokens make up, where `finish` is the span of the text's end. -/
def OfProgram (ts : List Token) (finish : Span) (p : Program) : Prop :=
  Statements ts p.statements ∧ p.span = Program.spanOf p.statements finish

end Grammar
end KoreanScript
