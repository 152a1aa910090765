import KoreanScript.Proofs.Steadiness

/-!
How the parser refuses tokens. Every reader refuses a list at one token: what stands in
front of that token can be completed, and whatever stands behind it, the reader gives
the same error, which blames that token or the expression to the left of it. A reader
that hands tokens on passes the refusals on, so this is shown construct by construct.
-/
namespace KoreanScript

/-- The token of a mark, at no place in particular. -/
def Mark.token (m : Mark) : Token := ⟨m.kind, m.lexeme, .origin⟩
theorem Mark.token_is (m : Mark) : m.token.is m := by
  simp [token, Token.is]
/-- Some name. -/
def Mark.name : Mark := ⟨.identifier, "x"⟩

namespace Grammar
open BindingPower (ofToken ofToken_of_is)

/-- What reads tokens with an end token at some span behind them. -/
abbrev Reader (α : Type) := Span → List Token → Except ParseError α

/-! ### Completions -/

/-- Whether further tokens make of `ts` what `G` says. -/
def Completes (G : List Token → Prop) (ts : List Token) : Prop :=
  ∃ us, (∀ t ∈ us, t.kind ≠ .finish) ∧ G (ts ++ us)

theorem Completes.whole {G : List Token → Prop} {ts : List Token} (whole : G ts) : Completes G ts :=
  ⟨[], by simp, by rwa [List.append_nil]⟩
theorem Completes.marks {G : List Token → Prop} {ts : List Token} (ms : List Mark)
    (kinds : ∀ m ∈ ms, m.kind ≠ .finish) (whole : G (ts ++ ms.map Mark.token)) : Completes G ts := by
  refine ⟨ms.map Mark.token, ?_, whole⟩
  intro t inside
  obtain ⟨m, member, rfl⟩ := List.mem_map.mp inside
  exact kinds m member
/-- What can be completed to something that can be completed can be completed. -/
theorem Completes.trans {G H : List Token → Prop} {ts us : List Token} (completes : Completes G us)
    (more : ∀ vs, G vs → Completes H (ts ++ vs)) : Completes H (ts ++ us) := by
  obtain ⟨vs, endless, inner⟩ := completes
  obtain ⟨ws, endless', outer⟩ := more _ inner
  refine ⟨vs ++ ws, List.forall_mem_append.mpr ⟨endless, endless'⟩, ?_⟩
  simpa only [List.append_assoc] using outer

/-! ### Refusals -/

/-- What an error of the reader `R` blames, where `t` is refused behind `before`: the token `t`, or,
    if `t` is an equals sign, the expression to the left of it. That expression begins where an
    expression is read that the equals sign could go on with, so whatever is wrong with an expression
    there is what `R` refuses. -/
inductive Blames {α : Type} (R : Reader α) : ParseError → List Token → Token → Prop
  | token {e : ParseError} {before : List Token} {t : Token} :
    (∀ text, e.cause ≠ .assignmentTarget text) → e.span = t.span → Blames R e before t
  | target {outer used : List Token} {t : Token} {d r : Expr} {p : BindingPower} :
    t.is .assignment → Derives .comparison used d r → (∀ i, d ≠ .identifier i) →
      p.right < BindingPower.assignment.left →
      (∀ s us e, us.head? = used.head? → Read.expression s p us = .error e → R s (outer ++ us) = .error e) →
      Blames R ⟨.assignmentTarget d.render, d.span⟩ (outer ++ used) t

/-- How `R` refuses tokens between `before` and `rest`, where `G` says what it reads. -/
structure RefusedAt {α : Type} (R : Reader α) (G : List Token → Prop) (s : Span) (e : ParseError)
    (before rest : List Token) : Prop where
  completes : Completes G before
  blames : Blames R e before (rest.head?.getD (.finish s))
  stable : ∀ t ∈ rest.head?, ∀ s' us, R s' (before ++ t :: us) = .error e
/-- Whether `R` refuses `ts` at one of their tokens or at their end. -/
def Refused {α : Type} (R : Reader α) (G : List Token → Prop) (s : Span) (e : ParseError) (ts : List Token) : Prop :=
  ∃ before rest, ts = before ++ rest ∧ RefusedAt R G s e before rest

section
variable {α β : Type} {R : Reader α} {R' : Reader β} {G G' : List Token → Prop} {s : Span} {e : ParseError}

theorem Refused.token {t : Token} {rest : List Token} (before : List Token) (completes : Completes G before)
    (other : ∀ text, e.cause ≠ .assignmentTarget text) (place : e.span = t.span)
    (stable : ∀ s' us, R s' (before ++ t :: us) = .error e) : Refused R G s e (before ++ t :: rest) := by
  refine ⟨before, t :: rest, rfl, completes, .token other place, ?_⟩
  rintro u ⟨⟩
  exact stable
theorem Refused.finish {before : List Token} (completes : Completes G before)
    (other : ∀ text, e.cause ≠ .assignmentTarget text) (place : e.span = s) : Refused R G s e before :=
  ⟨before, [], (List.append_nil _).symm, completes, .token other place, by simp⟩

/-- A reader refuses what it hands on to a reader that refuses it, if it passes its errors on
    wherever tokens begin in the same way. -/
theorem Refused.into {ts pre : List Token} (refused : Refused R G s e ts)
    (grows : ∀ us, us <+: ts → Completes G us → Completes G' (pre ++ us))
    (passes : ∀ s' us e', us.head? = ts.head? → R s' us = .error e' → R' s' (pre ++ us) = .error e') :
    Refused R' G' s e (pre ++ ts) := by
  obtain ⟨before, rest, rfl, completes, blames, stable⟩ := refused
  refine ⟨pre ++ before, rest, by rw [List.append_assoc], grows before (List.prefix_append _ _) completes, ?_, ?_⟩
  · cases blames with
    | token other place => exact .token other place
    | @target outer used t d r p assigns derived other low reads =>
      rw [← List.append_assoc]
      refine .target assigns derived other low fun s' us e' same failed => ?_
      rw [List.append_assoc]
      refine passes s' _ e' ?_ (reads s' us e' same failed)
      obtain ⟨u, vs, rfl, _⟩ := derived.starts
      cases outer with
      | nil => exact same
      | cons v outer => rfl
  · intro t front s' us
    rw [List.append_assoc]
    refine passes s' _ e ?_ (stable t front s' us)
    cases before with
    | nil => exact front.symm
    | cons u before => rfl
theorem Refused.within {ts : List Token} (refused : Refused R G s e ts) (pre : List Token)
    (more : ∀ us, G us → Completes G' (pre ++ us))
    (passes : ∀ s' us e', us.head? = ts.head? → R s' us = .error e' → R' s' (pre ++ us) = .error e') :
    Refused R' G' s e (pre ++ ts) :=
  refused.into (fun _ _ completes => completes.trans more) passes
/-- The same behind some tokens and one more. -/
theorem Refused.behind {ts : List Token} (refused : Refused R G s e ts) (pre : List Token) (t : Token)
    (more : ∀ us, G us → Completes G' (pre ++ t :: us))
    (passes : ∀ s' us e', us.head? = ts.head? → R s' us = .error e' → R' s' (pre ++ t :: us) = .error e') :
    Refused R' G' s e (pre ++ t :: ts) := by
  rw [List.append_cons]
  refine refused.within (pre ++ [t]) (fun us inner => ?_) fun s' us e' same failed => ?_
  · rw [← List.append_cons]
    exact more us inner
  · rw [← List.append_cons]
    exact passes s' us e' same failed

/-- A reader that begins with another one refuses what that one refuses. -/
theorem Refused.first {ts : List Token} {f : Span → α → Except ParseError β} (refused : Refused R G s e ts)
    (begins : ∀ s us, R' s us = R s us >>= f s) (more : ∀ us, G us → Completes G' us) : Refused R' G' s e ts := by
  refine refused.within [] more fun s' us e' _ failed => ?_
  exact (begins s' us).trans (bind_eq_error.mpr (.inl failed))

end

theorem ofDelimiter_other (t : Token) (m : Mark) (text : String) :
    (ParseError.ofDelimiter t m).cause ≠ .assignmentTarget text := by
  simp [ParseError.ofDelimiter]
/-- A reader refuses what it wants a mark in front of, if there is another token. -/
theorem expect_refused {α : Type} {R : Reader α} {G : List Token → Prop} {s : Span} {e : ParseError} {m : Mark}
    {ts : List Token} (failed : Read.expect s m ts = .error e) (before : List Token) (completes : Completes G before)
    (passes : ∀ s' us e', us.head? = ts.head? → Read.expect s' m us = .error e' → R s' (before ++ us) = .error e') :
    Refused R G s e (before ++ ts) := by
  cases ts with
  | nil =>
    rw [Read.expect_nil] at failed
    cases failed
    rw [List.append_nil]
    exact .finish completes (ofDelimiter_other _ m) rfl
  | cons t ts =>
    rw [Read.expect_cons] at failed
    split at failed
    · cases failed
    · next other =>
      cases failed
      refine .token before completes (ofDelimiter_other t m) rfl fun s' us => passes s' (t :: us) _ rfl ?_
      rw [Read.expect_cons, if_neg other]

/-! ### Sequences -/

/-- Items with commas between them, and the mark that closes them. -/
inductive Listed (close : Mark) (G : List Token → Prop) : List Token → Prop
  | last {ts : List Token} {t : Token} : G ts → t.is close → Listed close G (ts ++ [t])
  | more {ts us : List Token} {t : Token} :
    G ts → t.is .comma → Listed close G us → Listed close G (ts ++ t :: us)
/-- Any number of items, and the mark that closes them. -/
inductive Sequenced (close : Mark) (G : List Token → Prop) : List Token → Prop
  | none {t : Token} : t.is close → Sequenced close G [t]
  | some {ts : List Token} : Listed close G ts → Sequenced close G ts

section
variable {α : Type} {close : Mark} {item : Span → (ts : List Token) → Parse.Answer α ts.length}
  {G : List Token → Prop} {n : Nat}
  (steady : ∀ s ts a rest, Parse.plain (item s ts) = .ok (a, rest) → ∃ used, ts = used ++ rest ∧ G used ∧
    ∀ s' us, us.head? = rest.head? → Parse.plain (item s' (used ++ us)) = .ok (a, us))
  (refused : ∀ s ts e, ts.length < n → Parse.plain (item s ts) = .error e →
    Refused (fun s ts => Parse.plain (item s ts)) G s e ts)
  (kind : close.kind ≠ .finish)
include steady refused kind

theorem items_refused {s : Span} {e : ParseError} {ts : List Token} (bound : ts.length < n)
    (failed : Read.items s close (item s) ts = .error e) :
    Refused (fun s => Read.items s close (item s)) (Listed close G) s e ts := by
  have closes : ∀ us, G us → Completes (Listed close G) us := by
    intro us inner
    exact .marks [close] (by simpa using kind) (.last inner close.token_is)
  induction size : ts.length using Nat.strongRecOn generalizing ts with
  | _ m ih =>
    subst size
    rw [Read.items_eq] at failed
    rcases bind_eq_error.mp failed with first | ⟨⟨a, us⟩, first, behind⟩
    · exact (refused s ts e bound first).first (fun s us => Read.items_eq s close (item s) us) closes
    · obtain ⟨used, rfl, inner, steady⟩ := steady s ts a us first
      cases us with
      | nil =>
        cases behind
        rw [List.append_nil]
        exact .finish (closes used inner) (ofDelimiter_other _ close) rfl
      | cons t us =>
        -- Whatever is behind it, the token decides how the items go on.
        have goes : ∀ s' vs, Read.items s' close (item s') (used ++ t :: vs) =
            if t.is close then .ok (([a], t.span), vs)
            else if t.is .comma then Read.items s' close (item s') vs >>= fun x => .ok ((a :: x.1.1, x.1.2), x.2)
            else .error (.ofDelimiter t close) := by
          intro s' vs
          rw [Read.items_eq, steady s' (t :: vs) rfl]
          rfl
        simp only at behind
        split at behind
        · cases behind
        next open_ =>
        split at behind
        · next comma =>
          have tail := error_of_bind_ok behind fun _ => ⟨_, rfl⟩
          simp only [List.length_append, List.length_cons] at bound ih
          have later := ih us.length (by omega) (by omega) tail rfl
          refine later.behind used t (fun vs rest => .whole (.more inner comma rest)) fun s' vs e' _ failed => ?_
          rw [goes, if_neg open_, if_pos comma, failed]
          rfl
        · next other =>
          cases behind
          refine .token used (closes used inner) (ofDelimiter_other t close) rfl fun s' vs => ?_
          rw [goes, if_neg open_, if_neg other]
theorem sequence_refused {s : Span} {e : ParseError} {ts : List Token} (bound : ts.length < n)
    (failed : Read.sequence s close (item s) ts = .error e) :
    Refused (fun s => Read.sequence s close (item s)) (Sequenced close G) s e ts := by
  have whole : ∀ us, Listed close G us → Completes (Sequenced close G) us := fun us items => .whole (.some items)
  cases ts with
  | nil =>
    rw [Read.sequence_nil] at failed
    refine (items_refused steady refused kind bound failed).within [] whole fun s' us e' same failed => ?_
    obtain rfl : us = [] := List.head?_eq_none_iff.mp same
    exact (Read.sequence_nil ..).trans failed
  | cons t ts =>
    rw [Read.sequence_cons] at failed
    split at failed
    · cases failed
    · next open_ =>
      refine (items_refused steady refused kind bound failed).within [] whole fun s' us e' same failed => ?_
      obtain ⟨vs, rfl⟩ := List.head?_eq_some_iff.mp same
      exact ((Read.sequence_cons ..).trans (if_neg open_)).trans failed

end

end Grammar
end KoreanScript
