/-!
Places in a source text, and the stretches of text that tokens and tree nodes
cover. Rows and columns count from zero and a column counts characters; only a
line feed ends a row.
-/
namespace KoreanScript

/-- A place in a text. -/
structure Position where
  row : Nat
  column : Nat
deriving DecidableEq

namespace Position

/-- The place of a text's first character. -/
def origin : Position := ⟨0, 0⟩
/-- The place that follows the character `c` standing at `p`. -/
def after (p : Position) (c : Char) : Position :=
  if c = '\n' then ⟨p.row + 1, 0⟩ else ⟨p.row, p.column + 1⟩
/-- The place that follows a run of characters starting at `p`. -/
def afterAll (p : Position) (cs : List Char) : Position := cs.foldl after p
/-- Reading order: by row, then by column. -/
def order (p q : Position) : Ordering := (compare p.row q.row).then (compare p.column q.column)
def render (p : Position) : String := toString p.row ++ ":" ++ toString p.column

theorem afterAll_nil (p : Position) : p.afterAll [] = p := rfl
theorem afterAll_cons (p : Position) (c : Char) (cs : List Char) :
    p.afterAll (c :: cs) = (p.after c).afterAll cs := rfl
theorem afterAll_append (p : Position) (cs ds : List Char) :
    p.afterAll (cs ++ ds) = (p.afterAll cs).afterAll ds := List.foldl_append

end Position

/-- The stretch of text between two characters, both included. -/
structure Span where
  first : Position
  last : Position
deriving DecidableEq

namespace Span

/-- The span of a text's first character. -/
def origin : Span := ⟨.origin, .origin⟩
/-- The span of a nonempty run of characters whose first stands at `p`. -/
def ofRun (p : Position) (cs : List Char) : Span := ⟨p, p.afterAll cs.dropLast⟩
/-- From the first character of `a` to the last of `b`. -/
def through (a b : Span) : Span := ⟨a.first, b.last⟩
def render (s : Span) : String := s.first.render ++ ".." ++ s.last.render

end Span
end KoreanScript
