import KoreanScript.Proofs.NodeText

/-!
How the nodes of a tree lie in its text. Every node ends where it begins or further on,
its parts lie within it, and each of them ends before the next one begins. The tokens
of a text stand one behind the other; what is derived of some of them reaches from the
first to the last, and its parts are derived of tokens side by side among them.
-/
namespace KoreanScript

/-! ### Nodes in the text -/

/-- A node as it lies in the text: its span and its parts, in the order of their syntax. -/
inductive Region where
  | mk (span : Span) (parts : List Region)

namespace Region

def span : Region → Span
  | mk s _ => s
/-- A name: a parameter or the target of an assignment. -/
def ofName (i : Identifier) : Region := ⟨i.span, []⟩

end Region

mutual
/-- The parts of an expression. -/
def Expr.parts : Expr → List Region
  | .identifier _ | .number _ _ | .boolean _ _ | .string _ _ => []
  | .prefixed _ e _ => [⟨e.span, e.parts⟩]
  | .binary _ l r _ => [⟨l.span, l.parts⟩, ⟨r.span, r.parts⟩]
  | .function is b _ => is.map Region.ofName ++ [⟨b.span, b.parts⟩]
  | .call e es _ => ⟨e.span, e.parts⟩ :: Expr.regions es
  | .assignment i e _ => [.ofName i, ⟨e.span, e.parts⟩]
  | .list es _ => Expr.regions es
  | .table es _ => Expr.regionsEntries es
/-- Expressions, one behind the other. -/
def Expr.regions : List Expr → List Region
  | [] => []
  | e :: es => ⟨e.span, e.parts⟩ :: Expr.regions es
/-- The keys and values of entries, each key in front of its value. -/
def Expr.regionsEntries : List (Expr × Expr) → List Region
  | [] => []
  | (k, e) :: es => ⟨k.span, k.parts⟩ :: ⟨e.span, e.parts⟩ :: Expr.regionsEntries es
/-- The parts of a statement. -/
def Statement.parts : Statement → List Region
  | .branch e b none _ => [⟨e.span, e.parts⟩, ⟨b.span, b.parts⟩]
  | .branch e b (some c) _ => [⟨e.span, e.parts⟩, ⟨b.span, b.parts⟩, ⟨c.span, c.parts⟩]
  | .giveBack e _ | .expression e => [⟨e.span, e.parts⟩]
/-- Statements, one behind the other. -/
def Statement.regions : List Statement → List Region
  | [] => []
  | a :: as => ⟨a.span, a.parts⟩ :: Statement.regions as
/-- The statements of a block. -/
def Block.parts : Block → List Region
  | ⟨as, _⟩ => Statement.regions as
end

/-- A program with its statements for parts. -/
def Program.region (p : Program) : Region := ⟨p.span, Statement.regions p.statements⟩

theorem Expr.parts_withSpan (s : Span) (e : Expr) : (e.withSpan s).parts = e.parts := by
  cases e <;> simp only [withSpan, parts]

/-- Whether a span lies within another one. -/
structure Span.Inside (r s : Span) : Prop where
  first : ¬ r.first.Precedes s.first
  last : ¬ s.last.Precedes r.last

/-- Whether a node and all nodes below it end no earlier than they begin, have their parts within
    them, and have each part end before the next one begins. -/
inductive Region.Nested : Region → Prop
  | mk {s : Span} {parts : List Region} :
    ¬ s.last.Precedes s.first → (∀ r ∈ parts, r.span.Inside s) →
      parts.Pairwise (fun q r => q.span.last.Precedes r.span.first) → (∀ r ∈ parts, r.Nested) →
      Region.Nested ⟨s, parts⟩

theorem Region.Nested.forward : ∀ {r : Region}, r.Nested → ¬ r.span.last.Precedes r.span.first
  | _, .mk forward _ _ _ => forward
/-- A name has no parts. -/
theorem Region.Nested.ofName {i : Identifier} (forward : ¬ i.span.last.Precedes i.span.first) : (Region.ofName i).Nested :=
  .mk forward (by simp) .nil (by simp)

/-! ### Spans in order -/

theorem Position.Precedes.le {p q r : Position} (first : p.Precedes q) (rest : ¬ r.Precedes q) : p.Precedes r := by
  unfold Precedes at *
  omega
theorem Position.Precedes.after {p q r : Position} (first : ¬ q.Precedes p) (rest : q.Precedes r) : p.Precedes r := by
  unfold Precedes at *
  omega
theorem Position.Precedes.asymm {p q : Position} (first : p.Precedes q) : ¬ q.Precedes p :=
  fun back => p.not_precedes_self (first.trans back)

/-- Spans that end no earlier than they begin, and each before the next one begins. -/
structure Span.Ordered (ss : List Span) : Prop where
  forward : ∀ s ∈ ss, ¬ s.last.Precedes s.first
  apart : ss.Pairwise fun r s => r.last.Precedes s.first

namespace Span.Ordered
variable {rs ss : List Span} {r s : Span}

theorem front (ordered : Ordered (rs ++ ss)) : Ordered rs :=
  ⟨(List.forall_mem_append.mp ordered.forward).1, (List.pairwise_append.mp ordered.apart).1⟩
theorem back (ordered : Ordered (rs ++ ss)) : Ordered ss :=
  ⟨(List.forall_mem_append.mp ordered.forward).2, (List.pairwise_append.mp ordered.apart).2.1⟩
theorem behind (ordered : Ordered (s :: ss)) : Ordered ss :=
  ⟨(List.forall_mem_cons.mp ordered.forward).2, (List.pairwise_cons.mp ordered.apart).2⟩
theorem not_precedes_head (ordered : Ordered ss) (first : ss.head? = some s) (member : r ∈ ss) :
    ¬ r.first.Precedes s.first := by
  obtain ⟨ss, rfl⟩ : ∃ rest, ss = s :: rest := by
    cases ss with
    | nil => simp at first
    | cons _ rest => exact ⟨rest, by simpa using first⟩
  rcases List.mem_cons.mp member with rfl | later
  · exact Position.not_precedes_self _
  · exact (Position.Precedes.after (ordered.forward s (by simp)) ((List.pairwise_cons.mp ordered.apart).1 r later)).asymm
theorem not_getLast_precedes (ordered : Ordered ss) (last : ss.getLast? = some s) (member : r ∈ ss) :
    ¬ s.last.Precedes r.last := by
  obtain ⟨ss, rfl⟩ := List.getLast?_eq_some_iff.mp last
  rcases List.mem_append.mp member with earlier | rest
  · have apart := (List.pairwise_append.mp ordered.apart).2.2 r earlier s (by simp)
    exact (apart.le (ordered.forward s (by simp))).asymm
  · obtain rfl : r = s := by simpa using rest
    exact Position.not_precedes_self _
/-- Spans in order all lie within the span from the first of them to the last. -/
theorem inside {t : Span} (ordered : Ordered ss) (first : ss.head? = some s) (last : ss.getLast? = some t)
    (member : r ∈ ss) : r.Inside (s.through t) := by
  have begins := ordered.not_precedes_head first member
  have ends := ordered.not_getLast_precedes last member
  exact ⟨begins, ends⟩

end Span.Ordered

/-- A span around spans in order goes forward. -/
theorem Span.Inside.forward {r s : Span} (inside : r.Inside s) (forward : ¬ r.last.Precedes r.first) :
    ¬ s.last.Precedes s.first := by
  have first := inside.first
  have last := inside.last
  unfold Position.Precedes at *
  omega

/-- The tokens of a text stand one behind the other, and none in front of where the text begins. -/
theorem Cut.ordered {opened : Bool} {p : Position} {cs : List Char} {ts : List Token} (cut : Cut opened p cs ts) :
    Span.Ordered (ts.map Token.span) ∧ ∀ t ∈ ts, ¬ t.span.first.Precedes p := by
  induction cut with
  | nil opened p => exact ⟨⟨by simp, .nil⟩, by simp⟩
  | @blank opened p c cs ts _ _ ih =>
    refine ⟨ih.1, fun t member early => ih.2 t member ?_⟩
    exact early.trans (p.precedes_after c)
  | @lexeme opened p l rest ts fits _ ih =>
    obtain ⟨c, cs, run, _, _⟩ := fits.first_eq
    have nonempty : l.run ≠ [] := by simp [run]
    have last : (l.toToken p).span.last.Precedes (p.afterAll l.run) := by
      obtain ⟨d, split⟩ : ∃ d, l.run = l.run.dropLast ++ [d] := ⟨_, (List.dropLast_append_getLast nonempty).symm⟩
      rw [split, Position.afterAll_append]
      exact Position.precedes_after _ d
    refine ⟨⟨?_, ?_⟩, ?_⟩
    · exact List.forall_mem_cons.mpr ⟨Position.not_afterAll_precedes p _, ih.1.forward⟩
    · refine List.pairwise_cons.mpr ⟨List.forall_mem_map.mpr ?_, ih.1.apart⟩
      exact fun t member => last.le (ih.2 t member)
    · refine List.forall_mem_cons.mpr ⟨p.not_precedes_self, fun t member early => ih.2 t member ?_⟩
      exact early.trans (p.precedes_afterAll nonempty)

namespace Grammar

/-! ### Parts side by side -/

/-- Nodes that are laid out among tokens: each reaches from the first to the last of some tokens
    side by side, and the next one begins further behind. -/
inductive Laid : List Token → List Region → Prop
  | nil (ts : List Token) : Laid ts []
  | cons {us ts : List Token} {r : Region} {rs : List Region} (before : List Token) :
    r.Nested → Spans r.span us → Laid ts rs → Laid (before ++ (us ++ ts)) (r :: rs)

namespace Laid
variable {ts us : List Token} {r : Region} {qs rs : List Region}

theorem single (nested : r.Nested) (spans : Spans r.span ts) : Laid ts [r] := by
  simpa using Laid.cons [] nested spans (.nil [])
theorem back (laid : Laid ts rs) (us : List Token) : Laid (us ++ ts) rs := by
  cases laid with
  | nil => exact .nil _
  | cons before nested spans rest =>
    rw [← List.append_assoc]
    exact .cons _ nested spans rest
theorem behind (laid : Laid ts rs) (t : Token) : Laid (t :: ts) rs := laid.back [t]
theorem append (first : Laid ts qs) (second : Laid us rs) : Laid (ts ++ us) (qs ++ rs) := by
  induction first with
  | nil ts => exact second.back ts
  | cons before nested spans _ ih =>
    simp only [List.append_assoc]
    exact .cons before nested spans ih
theorem front (laid : Laid ts rs) (us : List Token) : Laid (ts ++ us) rs := by
  simpa using laid.append (.nil us)

theorem nested (laid : Laid ts rs) : ∀ r ∈ rs, r.Nested := by
  induction laid with
  | nil => simp
  | cons _ nested _ _ ih => exact List.forall_mem_cons.mpr ⟨nested, ih⟩
/-- Each node that is laid out begins and ends with a token. -/
theorem ends (laid : Laid ts rs) : ∀ r ∈ rs, ∃ t ∈ ts, ∃ u ∈ ts, r.span = t.span.through u.span := by
  induction laid with
  | nil => simp
  | @cons us ts r rs before _ spans _ ih =>
    refine List.forall_mem_cons.mpr ⟨?_, fun q member => ?_⟩
    · obtain ⟨⟨t, first, begins⟩, u, last, ends⟩ := spans
      refine ⟨t, ?_, u, ?_, by rw [Span.through, begins, ends]⟩
      · simp [List.mem_of_mem_head? first]
      · simp [List.mem_of_getLast? last]
    · obtain ⟨t, first, u, last, span⟩ := ih q member
      exact ⟨t, by simp [first], u, by simp [last], span⟩
/-- Nodes that are laid out among tokens in order are in order themselves. -/
theorem ordered (laid : Laid ts rs) (ordered : Span.Ordered (ts.map Token.span)) :
    Span.Ordered (rs.map Region.span) := by
  refine ⟨List.forall_mem_map.mpr fun r member => (laid.nested r member).forward, ?_⟩
  induction laid with
  | nil => exact .nil
  | @cons us ts r rs before _ spans rest ih =>
    rw [List.map_append, List.map_append] at ordered
    refine List.pairwise_cons.mpr ⟨List.forall_mem_map.mpr fun q member => ?_, ih ordered.back.back⟩
    obtain ⟨t, first, _, _, span⟩ := rest.ends q member
    obtain ⟨u, last, ends⟩ := spans.last
    have apart := (List.pairwise_append.mp ordered.back.apart).2.2
    rw [span, ← ends]
    exact apart u.span (List.mem_map_of_mem (List.mem_of_getLast? last)) t.span (List.mem_map_of_mem first)

end Laid

theorem Spans.inside {s : Span} {ts : List Token} (spans : Spans s ts) (ordered : Span.Ordered (ts.map Token.span))
    {t : Token} (member : t ∈ ts) : t.span.Inside s := by
  obtain ⟨⟨u, first, begins⟩, v, last, ends⟩ := spans
  have inside := ordered.inside (s := u.span) (t := v.span) (by simp [first]) (by simp [last])
    (List.mem_map_of_mem member)
  rwa [Span.through, begins, ends] at inside
theorem Spans.forward {s : Span} {ts : List Token} (spans : Spans s ts) (ordered : Span.Ordered (ts.map Token.span)) :
    ¬ s.last.Precedes s.first := by
  obtain ⟨t, first, _⟩ := spans.first
  have member := List.mem_of_mem_head? first
  exact (spans.inside ordered member).forward (ordered.forward _ (List.mem_map_of_mem member))
/-- A node with its parts among its tokens is laid out on them itself. -/
theorem Spans.laid {s : Span} {ts : List Token} {rs : List Region} (spans : Spans s ts)
    (parts : Span.Ordered (ts.map Token.span) → Laid ts rs) (ordered : Span.Ordered (ts.map Token.span)) :
    Laid ts [⟨s, rs⟩] := by
  have laid := parts ordered
  refine .single (.mk (spans.forward ordered) (fun r member => ?_) ?_ laid.nested) spans
  · obtain ⟨t, first, u, last, span⟩ := laid.ends r member
    rw [span]
    exact ⟨(spans.inside ordered first).first, (spans.inside ordered last).last⟩
  · exact List.pairwise_map.mp (laid.ordered ordered).apart
/-- A name stands on tokens of its own. -/
theorem Laid.ofName {i : Identifier} {ts : List Token} (spans : Spans i.span ts)
    (ordered : Span.Ordered (ts.map Token.span)) : Laid ts [.ofName i] :=
  .single (.ofName (spans.forward ordered)) spans

/-! ### The parts of what is derived -/

theorem Target.laid {ts : List Token} {i : Identifier} (target : Target ts i)
    (ordered : Span.Ordered (ts.map Token.span)) : Laid ts [.ofName i] :=
  .ofName target.spans ordered
theorem Names.laid {close : Mark} {ts : List Token} {is : List Identifier} {s : Span} (names : Names close ts is s)
    (ordered : Span.Ordered (ts.map Token.span)) : Laid ts (is.map Region.ofName) := by
  induction names with
  | @last t u _ _ =>
    have name : Laid [t] [.ofName ⟨t.value, t.span⟩] := .ofName (.token t) (Span.Ordered.front ordered)
    exact name.front [u]
  | @more t u ts is s _ _ _ ih =>
    have name : Laid [t] [.ofName ⟨t.value, t.span⟩] := .ofName (.token t) (Span.Ordered.front ordered)
    exact name.append ((ih ordered.behind.behind).behind u)
theorem Parameters.laid {ts : List Token} {is : List Identifier} (parameters : Parameters ts is)
    (ordered : Span.Ordered (ts.map Token.span)) : Laid ts (is.map Region.ofName) := by
  cases parameters with
  | none _ => exact .nil _
  | some names => exact names.laid ordered

mutual
theorem Derives.laid : ∀ {l : Level} {ts : List Token} {e r : Expr}, Derives l ts e r →
    Span.Ordered (ts.map Token.span) → Laid ts e.parts
  | _, _, _, _, .ofComparison inner, ordered | _, _, _, _, .ofSum inner, ordered | _, _, _, _, .ofProduct inner, ordered
  | _, _, _, _, .ofPrefixed inner, ordered | _, _, _, _, .ofCall inner, ordered
  | _, _, _, _, .ofPrimary inner, ordered => inner.laid ordered
  | _, _, _, _, .assign target _ value, ordered => by
    rw [List.map_append, List.map_cons] at ordered
    rw [Expr.parts]
    exact (target.laid ordered.front).append ((value.spans.laid value.laid ordered.back.behind).behind _)
  | _, _, _, _, .compare left _ _ right, ordered | _, _, _, _, .add left _ _ right, ordered
  | _, _, _, _, .multiply left _ _ right, ordered => by
    rw [List.map_append, List.map_cons] at ordered
    rw [Expr.parts]
    exact (left.spans.laid left.laid ordered.front).append ((right.spans.laid right.laid ordered.back.behind).behind _)
  | _, _, _, _, .lead _ operand, ordered => by
    rw [Expr.parts]
    exact (operand.spans.laid operand.laid ordered.behind).behind _
  | _, _, _, _, .call callee _ _ arguments, ordered => by
    rw [List.map_append, List.map_cons] at ordered
    rw [Expr.parts]
    exact (callee.spans.laid callee.laid ordered.front).append ((arguments.laid ordered.back.behind).behind _)
  | _, _, _, _, .number _ _, _ | _, _, _, _, .boolean _ _, _ | _, _, _, _, .string _, _
  | _, _, _, _, .identifier _, _ => by
    rw [Expr.parts]
    exact .nil _
  | _, _, _, _, .group _ inner _, ordered => by
    rw [List.map_cons, List.map_append] at ordered
    rw [Expr.parts_withSpan]
    exact ((inner.laid ordered.behind.front).front _).behind _
  | _, _, _, _, .function _ _ parameters body, ordered => by
    rw [List.map_cons, List.map_cons, List.map_append] at ordered
    rw [Expr.parts]
    have inner := (parameters.laid ordered.behind.behind.front).append (body.spans.laid body.laid ordered.behind.behind.back)
    exact (inner.behind _).behind _
  | _, _, _, _, .list _ elements, ordered => by
    rw [Expr.parts]
    exact (elements.laid ordered.behind).behind _
  | _, _, _, _, .table _ _ entries, ordered => by
    rw [Expr.parts]
    exact ((entries.laid ordered.behind.behind).behind _).behind _
theorem Elements.laid : ∀ {close : Mark} {ts : List Token} {es : List Expr} {s : Span}, Elements close ts es s →
    Span.Ordered (ts.map Token.span) → Laid ts (Expr.regions es)
  | _, _, _, _, .none _, _ => by
    rw [Expr.regions]
    exact .nil _
  | _, _, _, _, .some items, ordered => items.laid ordered
theorem Items.laid : ∀ {close : Mark} {ts : List Token} {es : List Expr} {s : Span}, Items close ts es s →
    Span.Ordered (ts.map Token.span) → Laid ts (Expr.regions es)
  | _, _, _, _, .last first _, ordered => by
    rw [List.map_append] at ordered
    rw [Expr.regions, Expr.regions]
    exact (first.spans.laid first.laid ordered.front).front _
  | _, _, _, _, .more first _ rest, ordered => by
    rw [List.map_append, List.map_cons] at ordered
    rw [Expr.regions]
    exact (first.spans.laid first.laid ordered.front).append ((rest.laid ordered.back.behind).behind _)
theorem Entries.laid : ∀ {ts : List Token} {es : List (Expr × Expr)} {s : Span}, Entries ts es s →
    Span.Ordered (ts.map Token.span) → Laid ts (Expr.regionsEntries es)
  | _, _, _, .none _, _ => by
    rw [Expr.regionsEntries]
    exact .nil _
  | _, _, _, .some pairs, ordered => pairs.laid ordered
theorem Pairs.laid : ∀ {ts : List Token} {es : List (Expr × Expr)} {s : Span}, Pairs ts es s →
    Span.Ordered (ts.map Token.span) → Laid ts (Expr.regionsEntries es)
  | _, _, _, .last key _ value _, ordered => by
    rw [List.map_append, List.map_cons, List.map_append] at ordered
    rw [Expr.regionsEntries, Expr.regionsEntries]
    exact (key.spans.laid key.laid ordered.front).append (((value.spans.laid value.laid ordered.back.behind.front).front _).behind _)
  | _, _, _, .more (u := u) key _ value _ rest, ordered => by
    rw [List.map_append, List.map_cons, List.map_append, List.map_cons] at ordered
    rw [Expr.regionsEntries]
    have behind := (value.spans.laid value.laid ordered.back.behind.front).append
      ((rest.laid ordered.back.behind.back.behind).behind u)
    exact (key.spans.laid key.laid ordered.front).append (behind.behind _)
theorem OfBlock.laid : ∀ {ts : List Token} {b : Block}, OfBlock ts b →
    Span.Ordered (ts.map Token.span) → Laid ts b.parts
  | _, _, .mk _ statements _, ordered => by
    rw [List.map_cons, List.map_append] at ordered
    rw [Block.parts]
    exact ((statements.laid ordered.behind.front).front _).behind _
theorem Bare.laid : ∀ {ts : List Token} {a : Statement} {o : Option Expr}, Bare ts a o →
    Span.Ordered (ts.map Token.span) → Laid ts a.parts
  | _, _, _, .branch _ predicate block, ordered => by
    rw [List.map_cons, List.map_append] at ordered
    rw [Statement.parts]
    exact ((predicate.spans.laid predicate.laid ordered.behind.front).append (block.spans.laid block.laid ordered.behind.back)).behind _
  | _, _, _, .branchElse (u := u) _ predicate block _ other, ordered => by
    rw [List.map_cons, List.map_append, List.map_append, List.map_cons] at ordered
    rw [Statement.parts]
    have blocks := (block.spans.laid block.laid ordered.behind.back.front).append
      ((other.spans.laid other.laid ordered.behind.back.back.behind).behind u)
    exact ((predicate.spans.laid predicate.laid ordered.behind.front).append blocks).behind _
  | _, _, _, .giveBack _ value, ordered => by
    rw [Statement.parts]
    exact (value.spans.laid value.laid ordered.behind).behind _
  | _, _, _, .expression value, ordered => by
    rw [Statement.parts]
    exact value.spans.laid value.laid ordered
/-- A statement with its parts, laid out on its tokens. -/
theorem Closing.laid : ∀ {ts : List Token} {a : Statement} {o : Option Expr}, Closing ts a o →
    Span.Ordered (ts.map Token.span) → Laid ts [⟨a.span, a.parts⟩]
  | _, _, _, .closed bare _, ordered => by
    rw [List.map_append] at ordered
    exact (bare.spans.laid bare.laid ordered.front).front _
  | _, _, _, .bare bare, ordered => bare.spans.laid bare.laid ordered
theorem Statements.laid : ∀ {ts : List Token} {as : List Statement}, Statements ts as →
    Span.Ordered (ts.map Token.span) → Laid ts (Statement.regions as)
  | _, _, .nil, _ => by
    rw [Statement.regions]
    exact .nil _
  | _, _, .cons first rest _, ordered => by
    rw [List.map_append] at ordered
    rw [Statement.regions]
    exact (first.laid ordered.front).append (rest.laid ordered.back)
end

end Grammar

/-! ### Programs -/

theorem Statement.map_span_regions (as : List Statement) : (regions as).map Region.span = as.map Statement.span := by
  induction as with
  | nil => rw [regions, List.map_nil, List.map_nil]
  | cons a as ih => rw [regions, List.map_cons, List.map_cons, ih, Region.span]

namespace Program
open Grammar

/-- The span from the first of some statements to the last is around statements in order. -/
theorem nested_spanOf {as : List Statement} {finish : Span} (forward : ¬ finish.last.Precedes finish.first)
    (nested : ∀ r ∈ Statement.regions as, r.Nested) (ordered : Span.Ordered ((Statement.regions as).map Region.span)) :
    Region.Nested ⟨spanOf as finish, Statement.regions as⟩ := by
  have inside : ∀ r ∈ Statement.regions as, r.span.Inside (spanOf as finish) := by
    intro r member
    have spans := List.mem_map_of_mem (f := Region.span) member
    rw [Statement.map_span_regions] at ordered spans
    obtain ⟨a, first⟩ : ∃ a, as.head? = some a := by
      cases as with
      | nil => simp at spans
      | cons a as => exact ⟨a, rfl⟩
    obtain ⟨b, last⟩ : ∃ b, as.getLast? = some b := by
      cases as using List.reverseRecOn with
      | nil => simp at spans
      | append_singleton as b => exact ⟨b, by simp⟩
    rw [spanOf, first, last]
    exact ordered.inside (by simp [first]) (by simp [last]) spans
  refine .mk ?_ inside (List.pairwise_map.mp ordered.apart) nested
  cases as with
  | nil => exact forward
  | cons a as =>
    have member : (⟨a.span, a.parts⟩ : Region) ∈ Statement.regions (a :: as) := by simp [Statement.regions]
    exact (inside _ member).forward (nested _ member).forward
/-- The nodes of a text that can be read are nested as they lie in it, all the way down. -/
theorem ofSource_nested {source : String} {p : Program} (read : ofSource source = .ok p) : p.region.Nested := by
  obtain ⟨derived, span⟩ := (ofTokens_iff_derives (kind_ne_finish_of_scan source) p).mp read
  have ordered : Span.Ordered ((Token.scan source).tokens.map Token.span) :=
    (Cut.scanFrom false .origin source.toList).ordered.1
  have laid := derived.laid ordered
  have finish : (Token.scan source).finish = _ := scanFrom_finish false .origin source.toList
  rw [region, span]
  refine nested_spanOf ?_ laid.nested (laid.ordered ordered)
  rw [finish]
  exact Position.not_precedes_self _

set_option maxRecDepth 100000 in
/-- A function over three lines, with an operation in parentheses in its body. -/
theorem ofSource_nested_function :
    ∃ p : Program, ofSource "가 = 함수(나) \x7b\n (나 + 나);\n\x7d;" = .ok p ∧ p.span = ⟨⟨0, 0⟩, ⟨2, 0⟩⟩ ∧ p.region.Nested := by
  let sum := Expr.binary .plus (.identifier ⟨"나", ⟨⟨1, 2⟩, ⟨1, 2⟩⟩⟩) (.identifier ⟨"나", ⟨⟨1, 6⟩, ⟨1, 6⟩⟩⟩)
    ⟨⟨1, 1⟩, ⟨1, 7⟩⟩
  let body : Block := ⟨[.expression sum], ⟨⟨0, 10⟩, ⟨2, 0⟩⟩⟩
  let literal := Expr.function [⟨"나", ⟨⟨0, 7⟩, ⟨0, 7⟩⟩⟩] body ⟨⟨0, 4⟩, ⟨2, 0⟩⟩
  have read : ofSource "가 = 함수(나) \x7b\n (나 + 나);\n\x7d;" = .ok
      ⟨[.expression (.assignment ⟨"가", ⟨⟨0, 0⟩, ⟨0, 0⟩⟩⟩ literal ⟨⟨0, 0⟩, ⟨2, 0⟩⟩)], ⟨⟨0, 0⟩, ⟨2, 0⟩⟩⟩ := by cbv
  exact ⟨_, read, rfl, ofSource_nested read⟩

end Program
end KoreanScript
