import KoreanScript.Proofs.Provenance

/-!
Code in which some names do not stand. Neither such code nor a function that it can come
to binds one of the names or reads it. So it does the same in two stores that differ only
in what one frame binds the names to, and it keeps what this frame binds them to. The name
of a builtin may stand wherever a call names the builtin by it.
-/
namespace KoreanScript

mutual
/-- The names in an expression: of variables, parameters and targets. The name of a builtin is none
    of them where it is called by it. -/
def Expr.names : Expr → List String
  | .identifier i => [i.name]
  | .number _ _ | .boolean _ _ | .string _ _ => []
  | .prefixed _ e _ => e.names
  | .binary _ l r _ => l.names ++ r.names
  | .function is b _ => is.map Identifier.name ++ b.names
  | .call e es _ =>
    match e.builtin? with
    | some _ => Expr.namesAll es
    | none => e.names ++ Expr.namesAll es
  | .assignment i e _ => i.name :: e.names
  | .list es _ => Expr.namesAll es
  | .table es _ => Expr.namesEntries es
def Expr.namesAll : List Expr → List String
  | [] => []
  | e :: es => e.names ++ Expr.namesAll es
def Expr.namesEntries : List (Expr × Expr) → List String
  | [] => []
  | (k, e) :: es => k.names ++ e.names ++ Expr.namesEntries es
def Statement.names : Statement → List String
  | .branch e b none _ => e.names ++ b.names
  | .branch e b (some c) _ => e.names ++ b.names ++ c.names
  | .giveBack e _ | .expression e => e.names
def Statement.namesAll : List Statement → List String
  | [] => []
  | a :: as => a.names ++ Statement.namesAll as
def Block.names : Block → List String
  | ⟨as, _⟩ => Statement.namesAll as
end

/-- The names in a program. -/
def Program.names (p : Program) : List String := Statement.namesAll p.statements
/-- The names in the literal of a function. -/
def Closure.names (c : Closure) : List String := c.parameters.map Identifier.name ++ c.body.names

/-! ### Trees without some names -/

/-- Equality of trees in which none of the names `ns` counts. -/
def Likeness.lacking (ns : List String) : Likeness := ⟨Eq, (· ∉ ns)⟩

section
variable {ns : List String}

theorem Likeness.named_lacking {i : Identifier} (other : i.name ∉ ns) : (lacking ns).Named i i := ⟨rfl, other, rfl⟩
theorem parameters_lacking {is : List Identifier} (absent : (is.map Identifier.name).Disjoint ns) :
    List.Forall₂ (Likeness.lacking ns).Named is is :=
  List.forall₂_same.mpr fun _ member => Likeness.named_lacking (absent (List.mem_map_of_mem member))

mutual
/-- A tree in which none of the names stands counts as like itself. -/
theorem Expr.alike_lacking : ∀ e : Expr, e.names.Disjoint ns → e.Alike (.lacking ns) e
  | .identifier i, absent => by
    rw [Expr.names, List.singleton_disjoint] at absent
    exact .identifier (Likeness.named_lacking absent)
  | .number x _, _ => .number x rfl
  | .boolean b _, _ => .boolean b rfl
  | .string w _, _ => .string w rfl
  | .prefixed op e _, absent => by
    rw [Expr.names] at absent
    exact .prefixed op (Expr.alike_lacking e absent) rfl
  | .binary op l r _, absent => by
    rw [Expr.names, List.disjoint_append_left] at absent
    exact .binary op (Expr.alike_lacking l absent.1) (Expr.alike_lacking r absent.2) rfl
  | .function is b _, absent => by
    rw [Expr.names, List.disjoint_append_left] at absent
    exact .function (parameters_lacking absent.1) (Block.alike_lacking b absent.2) rfl
  | .call e es _, absent => by
    rw [Expr.names] at absent
    cases named : e.builtin? with
    | some b =>
      rw [named] at absent
      cases e with
      | identifier i => exact .callBuiltin named rfl rfl (Expr.allAlike_lacking es absent) rfl
      | _ => cases named
    | none =>
      simp only [named, List.disjoint_append_left] at absent
      exact .call (Expr.alike_lacking e absent.1) (Expr.allAlike_lacking es absent.2) rfl
  | .assignment i e _, absent => by
    rw [Expr.names, List.disjoint_cons_left] at absent
    exact .assignment (Likeness.named_lacking absent.1) (Expr.alike_lacking e absent.2) rfl
  | .list es _, absent => by
    rw [Expr.names] at absent
    exact .list (Expr.allAlike_lacking es absent) rfl
  | .table es _, absent => by
    rw [Expr.names] at absent
    exact .table (Expr.entriesAlike_lacking es absent) rfl
theorem Expr.allAlike_lacking : ∀ es : List Expr, (Expr.namesAll es).Disjoint ns → Expr.AllAlike (.lacking ns) es es
  | [], _ => .nil
  | e :: es, absent => by
    rw [Expr.namesAll, List.disjoint_append_left] at absent
    exact .cons (Expr.alike_lacking e absent.1) (Expr.allAlike_lacking es absent.2)
theorem Expr.entriesAlike_lacking : ∀ es : List (Expr × Expr), (Expr.namesEntries es).Disjoint ns →
    Expr.EntriesAlike (.lacking ns) es es
  | [], _ => .nil
  | (k, e) :: es, absent => by
    rw [Expr.namesEntries, List.disjoint_append_left, List.disjoint_append_left] at absent
    obtain ⟨⟨key, value⟩, rest⟩ := absent
    exact .cons (Expr.alike_lacking k key) (Expr.alike_lacking e value) (Expr.entriesAlike_lacking es rest)
theorem Statement.alike_lacking : ∀ a : Statement, a.names.Disjoint ns → a.Alike (.lacking ns) a
  | .branch e b none _, absent => by
    rw [Statement.names, List.disjoint_append_left] at absent
    exact .branch (Expr.alike_lacking e absent.1) (Block.alike_lacking b absent.2) rfl
  | .branch e b (some c) _, absent => by
    rw [Statement.names, List.disjoint_append_left, List.disjoint_append_left] at absent
    obtain ⟨⟨predicate, block⟩, other⟩ := absent
    exact .branchElse (Expr.alike_lacking e predicate) (Block.alike_lacking b block) (Block.alike_lacking c other) rfl
  | .giveBack e _, absent => by
    rw [Statement.names] at absent
    exact .giveBack (Expr.alike_lacking e absent) rfl
  | .expression e, absent => by
    rw [Statement.names] at absent
    exact .expression (Expr.alike_lacking e absent)
theorem Statement.allAlike_lacking : ∀ as : List Statement, (Statement.namesAll as).Disjoint ns →
    Statement.AllAlike (.lacking ns) as as
  | [], _ => .nil
  | a :: as, absent => by
    rw [Statement.namesAll, List.disjoint_append_left] at absent
    exact .cons (Statement.alike_lacking a absent.1) (Statement.allAlike_lacking as absent.2)
theorem Block.alike_lacking : ∀ b : Block, b.names.Disjoint ns → b.Alike (.lacking ns) b
  | ⟨as, _⟩, absent => by
    rw [Block.names] at absent
    exact .mk (Statement.allAlike_lacking as absent) rfl
end

end

namespace Store

/-! ### What a program can come to -/

/-- `s.Sees home g`: evaluation in frame `home` can come to frame `g`: that is the frame itself, one
    around it, or one in which a function was made that is bound in a frame that it comes to. -/
inductive Sees (s : Store) (home : FrameId) : FrameId → Prop
  | here : Sees s home home
  | outer {g h : FrameId} {frame : Frame} :
    Sees s home g → s.frames[g]? = some frame → frame.outer = some h → Sees s home h
  | bound {g : FrameId} {frame : Frame} {name : String} {v : Value} {c : Closure} :
    Sees s home g → s.frames[g]? = some frame → Entries.get? name frame.bindings = some v → c ∈ v.closures →
      Sees s home c.scope

/-- Whether a name stands in none of the functions that evaluation in frame `home` can come to. -/
def Unread (s : Store) (home : FrameId) (n : String) : Prop :=
  ∀ ⦃g : FrameId⦄ ⦃frame : Frame⦄ ⦃name : String⦄ ⦃v : Value⦄ ⦃c : Closure⦄, s.Sees home g → s.frames[g]? = some frame →
    Entries.get? name frame.bindings = some v → c ∈ v.closures → n ∉ c.names

/-- What frame `g` itself binds a name to. -/
def own? (s : Store) (g : FrameId) (name : String) : Option Value :=
  s.frames[g]?.bind fun frame => Entries.get? name frame.bindings

variable {s t start : Store} {f g h home : FrameId} {n m name : String} {ns : List String} {v w : Value}

theorem own?_bind : (s.bind g name w).own? h n =
    if h = g ∧ n = name then s.frames[g]?.map fun _ => w else s.own? h n := by
  by_cases here : h = g
  · subst here
    simp only [own?, Store.bind, Array.getElem?_modify, true_and]
    cases s.frames[h]? with
    | none => simp
    | some frame =>
      by_cases same : n = name
      · simp [Entries.get?_insert, same]
      · simp [Entries.get?_insert, same, Ne.symm same]
  · rw [own?, frames_bind_of_ne here, if_neg fun both => here both.1, own?]
theorem own?_push {frame : Frame} : (s.push frame).own? h n =
    if h = s.next then Entries.get? n frame.bindings else s.own? h n := by
  rw [own?, Store.push, Array.getElem?_push, next]
  split
  · rfl
  · rfl
/-- What a frame binds a name to itself is what the name means there. -/
theorem lookup_of_own? (own : s.own? f n = some v) : s.lookup f n = some v := by
  rw [own?, Option.bind_eq_some_iff] at own
  obtain ⟨frame, here, found⟩ := own
  rw [lookup, Frame.lookup, here]
  simp only [found]

/-! ### Stores that differ in what a frame binds some names to -/

/-- The stores are the same but for what frame `f` binds the names `ns` to. -/
structure SameBut (f : FrameId) (ns : List String) (s t : Store) : Prop where
  size : t.frames.size = s.frames.size
  functions : t.functions = s.functions
  output : t.output = s.output
  outer (g : FrameId) : t.frames[g]?.map Frame.outer = s.frames[g]?.map Frame.outer
  own {g : FrameId} {name : String} (other : ¬ (g = f ∧ name ∈ ns)) : t.own? g name = s.own? g name

namespace SameBut

theorem refl (f : FrameId) (ns : List String) (s : Store) : s.SameBut f ns s := ⟨rfl, rfl, rfl, fun _ => rfl, fun _ => rfl⟩
theorem bind (same : s.SameBut f ns t) (g : FrameId) (name : String) (w : Value) :
    (s.bind g name w).SameBut f ns (t.bind g name w) := by
  refine ⟨?_, same.functions, same.output, fun h => ?_, fun {h m} other => ?_⟩
  · rw [size_bind, size_bind, same.size]
  · rw [outer_bind, outer_bind, same.outer]
  have present : t.frames[g]?.map (fun _ => w) = s.frames[g]?.map fun _ => w := by
    have around := congrArg (Option.map fun _ => w) (same.outer g)
    rwa [Option.map_map, Option.map_map] at around
  rw [own?_bind, own?_bind, present, same.own other]
/-- Only the right store binds one of the names. -/
theorem bind_right (same : s.SameBut f ns t) (among : n ∈ ns) (v : Value) : s.SameBut f ns (t.bind f n v) := by
  refine ⟨?_, same.functions, same.output, fun h => ?_, fun {h m} other => ?_⟩
  · rw [size_bind, same.size]
  · rw [outer_bind, same.outer]
  have another : ¬ (h = f ∧ m = n) := fun both => other ⟨both.1, both.2 ▸ among⟩
  rw [own?_bind, if_neg another, same.own other]
theorem push (same : s.SameBut f ns t) (frame : Frame) : (s.push frame).SameBut f ns (t.push frame) := by
  have next : t.next = s.next := same.size
  refine ⟨?_, same.functions, same.output, fun h => ?_, fun {h m} other => ?_⟩
  · rw [size_push, size_push, same.size]
  · simp only [Store.push, Array.getElem?_push, same.size]
    split
    · rfl
    · exact same.outer h
  rw [own?_push, own?_push, next, same.own other]
theorem write (same : s.SameBut f ns t) (line : String) : (s.write line).SameBut f ns (t.write line) :=
  ⟨same.size, same.functions, congrArg (·.push line) same.output, same.outer, same.own⟩

end SameBut

/-! ### Evaluation in such stores -/

/-- A frame that evaluation in frame `home` of `s` can come to or that has been made since it started:
    it stands in for itself where the evaluation starts with other bindings. -/
def known (s : Store) (home g h : FrameId) : Prop := g = h ∧ (s.Sees home g ∨ s.frames.size ≤ g)
/-- A function that was made in such a frame and in which none of the names stands. -/
def Free (s : Store) (home : FrameId) (ns : List String) (c : Closure) : Prop := c.Alike (.lacking ns) (s.known home) c
/-- The same values, with such functions only. -/
abbrev SameFree (s : Store) (home : FrameId) (ns : List String) : Value → Value → Prop :=
  Value.Related (Closure.SameWith (s.Free home ns))

/-- Stores that evaluation in frame `home` of `start` comes to, and that it comes to where frame `f`
    binds the names `ns` to something else: to what `bound` says. -/
structure Beside (start : Store) (home f : FrameId) (ns : List String) (bound : String → Option Value) (s t : Store) :
    Prop where
  grown : start.frames.size ≤ s.frames.size
  same : s.SameBut f ns t
  own {n : String} (among : n ∈ ns) : t.own? f n = bound n
  frames : s.FramesRelated (· ∉ ns) (start.SameFree home ns) (start.known home) t

theorem keepsOrder_known : KeepsOrder (start.known home) := by
  rintro f _ f' _ ⟨rfl, _⟩ ⟨rfl, _⟩
  exact Iff.rfl
/-- A function that evaluation can come to from the start is free of names that are unread. -/
theorem Unread.free (unread : ∀ n ∈ ns, start.Unread home n) {c : Closure} {frame : Frame} (sees : start.Sees home g)
    (here : start.frames[g]? = some frame) (found : Entries.get? name frame.bindings = some w) (inside : c ∈ w.closures) :
    start.Free home ns c := by
  have absent : c.names.Disjoint ns := fun n member among => unread n among sees here found inside member
  rw [Closure.names, List.disjoint_append_left] at absent
  exact ⟨parameters_lacking absent.1, Block.alike_lacking _ absent.2, rfl, .inl (.bound sees here found inside)⟩
/-- Where evaluation starts, the store stands beside itself. -/
theorem Unread.beside (unread : ∀ n ∈ ns, start.Unread home n) (f : FrameId) :
    start.Beside home f ns (start.own? f) start start := by
  refine ⟨Nat.le_refl _, .refl f ns start, fun _ => rfl, ?_⟩
  rintro g _ ⟨rfl, sees | made⟩
  · refine rel_self fun frame here => ⟨fun name _ => rel_self fun w found => ?_, rel_self fun h around => ?_⟩
    · refine Value.related_sameWith_iff.mpr ⟨rfl, fun c inside => ?_⟩
      exact Unread.free unread sees here found inside
    · exact ⟨rfl, .inl (.outer sees here around)⟩
  · rw [Array.getElem?_eq_none made]
    exact .none

namespace Beside
variable {bound : String → Option Value}

theorem next (beside : start.Beside home f ns bound s t) : start.known home s.next t.next :=
  ⟨beside.same.size.symm, .inr beside.grown⟩
theorem silence (beside : start.Beside home f ns bound s t) : start.Beside home f ns bound s.silence t.silence := by
  obtain ⟨size, functions, _, outer, own⟩ := beside.same
  exact ⟨beside.grown, ⟨size, functions, rfl, outer, own⟩, beside.own, beside.frames⟩
/-- Both stores bind another name to the same. -/
theorem bind (beside : start.Beside home f ns bound s t) (known : start.known home g g) (other : name ∉ ns)
    (values : start.SameFree home ns w w) : start.Beside home f ns bound (s.bind g name w) (t.bind g name w) := by
  refine ⟨?_, beside.same.bind g name w, fun {n} among => ?_, beside.frames.bind keepsOrder_known known name values⟩
  · rw [size_bind]
    exact beside.grown
  · have another : ¬ (f = g ∧ n = name) := fun both => other (both.2 ▸ among)
    rw [own?_bind, if_neg another]
    exact beside.own among
/-- Only the right store binds one of the names. -/
theorem bind_right (beside : start.Beside home f ns bound s t) (present : f < start.frames.size) (among : n ∈ ns)
    {bound' : String → Option Value} (v : Value) (bound_eq : ∀ m ∈ ns, bound' m = if m = n then some v else bound m) :
    start.Beside home f ns bound' s (t.bind f n v) := by
  refine ⟨beside.grown, beside.same.bind_right among v, fun {m} inside => ?_, ?_⟩
  · have there : f < t.frames.size := by
      rw [beside.same.size]
      exact Nat.lt_of_lt_of_le present beside.grown
    rw [own?_bind, bound_eq m inside, Array.getElem?_eq_getElem there, Option.map_some, beside.own inside]
    simp only [true_and]
  · rintro g _ ⟨rfl, known⟩
    have related := beside.frames ⟨rfl, known⟩
    by_cases here : g = f
    · simp only [Store.bind, Array.getElem?_modify, here, if_true] at related ⊢
      rcases rel_cases related with ⟨left, right⟩ | ⟨a, b, left, right, frame⟩
      · rw [left, right]
        exact .none
      · rw [left, right]
        refine .some ⟨fun name other => ?_, frame.outer⟩
        have another : ¬ (n == name) = true := fun same => other (eq_of_beq same ▸ among)
        rw [Entries.get?_insert, if_neg another]
        exact frame.bindings name other
    · rw [frames_bind_of_ne here]
      exact related
theorem push (beside : start.Beside home f ns bound s t) (present : f < start.frames.size) {frame : Frame}
    (related : frame.Related (· ∉ ns) (start.SameFree home ns) (start.known home) frame) :
    start.Beside home f ns bound (s.push frame) (t.push frame) := by
  refine ⟨?_, beside.same.push frame, fun {n} among => ?_, beside.frames.push keepsOrder_known beside.next related⟩
  · rw [size_push]
    exact Nat.le_succ_of_le beside.grown
  · have older : f ≠ t.next := by
      rw [Store.next, beside.same.size]
      exact Nat.ne_of_lt (Nat.lt_of_lt_of_le present beside.grown)
    rw [own?_push, if_neg older]
    exact beside.own among

end Beside

/-- Evaluations of code in which none of the names stands, in stores that differ in what frame `f`
    binds them to. -/
def apart (start : Store) (home f : FrameId) (ns : List String) (bound : String → Option Value)
    (present : f < start.frames.size) : Simulation where
  code L := L = .lacking ns
  frames := start.known home
  closures := Closure.SameWith (start.Free home ns)
  stores := start.Beside home f ns bound
  unfolds := by
    rintro c _ ⟨rfl, free⟩
    exact ⟨_, rfl, free⟩
  lookup := by
    rintro s t g h _ name beside pair rfl other
    exact beside.frames.lookup keepsOrder_known pair other
  bind := by
    rintro s t g _ _ name w _ beside ⟨rfl, since⟩ rfl other values
    obtain ⟨rfl, _⟩ := values.same
    exact beside.bind ⟨rfl, since⟩ other values
  enter := by
    rintro s t g _ beside ⟨rfl, since⟩
    exact ⟨beside.next, beside.push present ⟨.nil, .some ⟨rfl, since⟩⟩⟩
  apply := by
    rintro s t c _ vs _ beside ⟨rfl, free⟩ arguments
    obtain ⟨rfl, _⟩ := Value.Related.same_all arguments
    refine ⟨beside.next, beside.push present ?_⟩
    exact Closure.frame_related .empty (free.parameters.imp fun _ _ named => named.name) free.scope arguments
  close := by
    rintro s t g _ _ is js b c beside ⟨rfl, since⟩ rfl parameters body
    cases names_same (fun _ _ => id) parameters
    cases body.eq fun _ _ => id
    obtain ⟨size, functions, output, outer, own⟩ := beside.same
    refine ⟨⟨?_, parameters, body, rfl, since⟩, beside.grown, ?_, beside.own, beside.frames⟩
    · rw [functions]
    · exact ⟨size, congrArg (· + 1) functions, output, outer, own⟩
  write line beside := ⟨beside.grown, beside.same.write line, beside.own, beside.frames⟩

end Store
end KoreanScript
