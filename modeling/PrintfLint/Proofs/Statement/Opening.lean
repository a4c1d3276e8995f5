import PrintfLint.Proofs.Statement.Judgement

/-!
# PrintfLint.Proofs.Statement.Opening — the first tokens of a statement

* `Opens` — a sequence starts with the keyword, a parenthesis and the literal;
* `Attempts.literal?_eq_some_iff` — an attempt has the literal exactly if the tokens start so;
* `TokenSeq.specifiers_of_opens`, `TokenSeq.specifiers_of_not_opens` — the directives of an outcome
  are those of this literal, whatever is wrong behind it.
-/

namespace PrintfLint

/-- The first three tokens are the keyword, an opening parenthesis and a literal. -/
def Opens (ts : List Token) (literal : Token) : Prop :=
  ∃ p o rest, ts = p :: o :: literal :: rest ∧ p.kind = .printf ∧ o.kind = .lparen ∧
    literal.kind = .literal

section

variable {fin literal : Token} {ts rest : List Token} {a : Attempt}

/-- The end of input is none of the first three tokens. -/
theorem Opens.exists_body (hfin : fin.kind = .endOfInput) (h : Opens (ts ++ [fin]) literal) :
    ∃ p o rest, ts = p :: o :: literal :: rest ∧ p.kind = .printf ∧ o.kind = .lparen ∧
      literal.kind = .literal := by
  rcases h with ⟨p, o, rest, htokens, hp, ho, ht⟩
  -- the literal would be the last token, but that is the end of input
  rcases List.eq_nil_or_concat rest with rfl | ⟨rest, u, rfl⟩
  · have hsplit : ts ++ [fin] = [p, o] ++ [literal] := htokens
    obtain ⟨-, rfl⟩ : ts = [p, o] ∧ fin = literal := by
      simpa using List.append_inj' hsplit rfl
    rw [hfin] at ht
    cases ht
  · have hsplit : ts ++ [fin] = (p :: o :: literal :: rest) ++ [u] := by simpa using htokens
    obtain ⟨rfl, -⟩ : ts = p :: o :: literal :: rest ∧ fin = u := by
      simpa using List.append_inj' hsplit rfl
    exact ⟨p, o, rest, rfl, hp, ho, ht⟩

theorem opens_of_body {p o : Token} (hp : p.kind = .printf) (ho : o.kind = .lparen)
    (ht : literal.kind = .literal) (ts : List Token) :
    Opens (p :: o :: literal :: ts ++ [fin]) literal :=
  ⟨p, o, ts ++ [fin], rfl, hp, ho, ht⟩

/-- Where the keyword or the parenthesis is missing, no literal has its place. -/
theorem Expects.not_opens {e : GrammarError} (hfin : fin.kind = .endOfInput)
    (h : Expects fin [.printf, .lparen] ts (some e) rest) : ¬ Opens (ts ++ [fin]) literal := by
  intro hopens
  rcases hopens.exists_body hfin with ⟨p, o, ts, rfl, hp, ho, -⟩
  have hread := h.expectAll_eq hfin (by decide)
  rw [Attempt.expectAll_cons hp (by decide), Attempt.expectAll_cons ho (by decide),
    Attempt.expectAll] at hread
  cases hread

theorem Expects.exists_opening (h : Expects fin [.printf, .lparen] ts none rest) :
    ∃ p o, ts = p :: o :: rest ∧ p.kind = .printf ∧ o.kind = .lparen := by
  rcases h.exists_append rfl with ⟨us, rfl, hus⟩
  rcases exists_pair hus with ⟨p, o, rfl, hp, ho⟩
  exact ⟨p, o, rfl, hp, ho⟩

theorem BodyReads.literal?_eq_some_iff (h : BodyReads fin ts a) :
    a.draft.literal? = some literal ↔ ∃ rest, ts = literal :: rest ∧ literal.kind = .literal := by
  constructor
  · intro ha
    -- the literal is kept by every body that has one
    cases h with
    | no_literal => cases ha
    | bare ht =>
      cases ha
      exact ⟨_, rfl, ht⟩
    | arguments_error ht =>
      cases ha
      exact ⟨_, rfl, ht⟩
    | supplied ht =>
      cases ha
      exact ⟨_, rfl, ht⟩
  · rintro ⟨rest, rfl, ht⟩
    cases h with
    | no_literal hne => exact absurd ht (hne literal rfl)
    | bare => rfl
    | arguments_error => rfl
    | supplied => rfl

/-- An attempt has a literal exactly if the tokens start as those of a statement. -/
theorem Attempts.literal?_eq_some_iff (hfin : fin.kind = .endOfInput) (h : Attempts fin ts a) :
    a.draft.literal? = some literal ↔ Opens (ts ++ [fin]) literal := by
  -- behind the opening the draft is that of the body, whatever comes after it
  have hbody : ∀ {mid : List Token} {inner : Attempt},
      Expects fin [.printf, .lparen] ts none mid → BodyReads fin mid inner →
        ∀ d, inner.draft = d → (d.literal? = some literal ↔ Opens (ts ++ [fin]) literal) := by
    rintro mid inner before body d rfl
    rcases before.exists_opening with ⟨p, o, rfl, hp, ho⟩
    rw [body.literal?_eq_some_iff]
    constructor
    · rintro ⟨rest, rfl, ht⟩
      exact opens_of_body hp ho ht rest
    · intro hopens
      rcases hopens.exists_body hfin with ⟨p, o, rest, htokens, -, -, ht⟩
      cases htokens
      exact ⟨rest, rfl, ht⟩
  cases h with
  | opening before =>
    constructor
    · intro ha
      cases ha
    · intro hopens
      exact absurd hopens (before.not_opens hfin)
  | body_error before body => exact hbody before body _ rfl
  | closing before body => exact hbody before body _ rfl
  | trailing before body => exact hbody before body _ rfl
  | done before body => exact hbody before body _ rfl

end

namespace TokenSeq

variable {s : TokenSeq} {propagate : Bool}

theorem specifiers_outcome (s : TokenSeq) (propagate : Bool) :
    (s.outcome propagate).specifiers = s.attempt.draft.specifiers [] := by
  unfold outcome Attempt.outcome
  split <;> rfl

/-- The directives of an outcome are those of the literal. -/
theorem specifiers_of_opens {literal : Token} (h : Opens s.toList literal) :
    (s.outcome propagate).specifiers = Specifier.extract literal.text := by
  have hliteral := (s.attempts_attempt.literal?_eq_some_iff s.last_kind).mpr h
  rw [specifiers_outcome, Draft.specifiers, hliteral]

/-- Where no literal has its place there are no directives. -/
theorem specifiers_of_not_opens (h : ∀ literal, ¬ Opens s.toList literal) :
    (s.outcome propagate).specifiers = [] := by
  have hnone : s.attempt.draft.literal? = none := by
    by_contra hne
    rcases Option.ne_none_iff_exists'.mp hne with ⟨literal, hliteral⟩
    exact h literal ((s.attempts_attempt.literal?_eq_some_iff s.last_kind).mp hliteral)
  rw [specifiers_outcome, Draft.specifiers, hnone]

end TokenSeq

end PrintfLint
