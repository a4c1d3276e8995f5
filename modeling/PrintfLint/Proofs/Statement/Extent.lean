import Mathlib.Data.List.Chain
import PrintfLint.Proofs.Statement.Depth

/-!
# PrintfLint.Proofs.Statement.Extent — the tokens of an argument

* `Spans` — a span goes from the first of some tokens to the last;
* `Phrase.spans` — the span of an expression is that of its tokens;
* `Phrase.exists_infix`, `Phrase.isChain_comma` — the arguments of a list are phrases of their own,
  with a comma between one and the next;
* `TokenSeq.exists_phrase` — the arguments of an outcome are such a list, whatever is wrong behind
  it.
-/

namespace PrintfLint

/-- The span goes from the start of the first token to the end of the last one. -/
structure Spans (us : List Token) (s : Span) : Prop where
  start_eq : us.head?.map (fun t => t.span.start) = some s.start
  stop_eq : us.getLast?.map (fun t => t.span.stop) = some s.stop

theorem spans_singleton (t : Token) : Spans [t] t.span where
  start_eq := rfl
  stop_eq := rfl

theorem Spans.join {us vs : List Token} {a b : Span} (hus : Spans us a) (hvs : Spans vs b)
    (ts : List Token) : Spans (us ++ (ts ++ vs)) (a.join b) where
  start_eq := by
    rcases Option.map_eq_some_iff.mp hus.start_eq with ⟨t, ht, hstart⟩
    rw [List.head?_append, ht]
    exact congrArg some hstart
  stop_eq := by
    rcases Option.map_eq_some_iff.mp hvs.stop_eq with ⟨t, ht, hstop⟩
    rw [List.getLast?_append, List.getLast?_append, ht]
    exact congrArg some hstop

namespace Phrase

variable {k : Category} {us : List Token} {es : List Expr}

/-- The span of an expression is that of its tokens. -/
theorem spans (h : Phrase k us es) {a : Expr} (ha : es = [a]) : Spans us a.span := by
  -- only phrases for one expression have a span: a list of two is no single expression
  induction h generalizing a with
  | single _ ih => exact ih ha
  | @join l us vs t b c _ _ _ ih ihright =>
    cases ha
    exact (ih rfl).join (ihright rfl) [t]
  | term _ ih => exact ih ha
  | factor _ ih => exact ih ha
  | @number t =>
    cases ha
    exact spans_singleton t
  | @name t =>
    cases ha
    exact spans_singleton t
  | @call_empty t o c =>
    cases ha
    exact (spans_singleton t).join (spans_singleton c) [o]
  | @call t o c us =>
    cases ha
    exact (spans_singleton t).join (spans_singleton c) (o :: us)
  | @group o c us =>
    cases ha
    exact (spans_singleton o).join (spans_singleton c) us
  | last _ ih => exact ih ha
  | comma _ _ hothers =>
    rw [List.cons.injEq] at ha
    exact absurd ha.2 hothers.exprs_ne_nil

/-- Arguments start with the first of them. -/
theorem exists_prefix (h : Phrase .arguments us es) :
    ∀ a ∈ es.head?, ∃ ws, ws <+: us ∧ Phrase (.chain .sum) ws [a] := by
  intro a ha
  cases h with
  | last only =>
    cases ha
    exact ⟨us, List.prefix_rfl, only⟩
  | @comma t us vs b es first =>
    cases ha
    exact ⟨us, List.prefix_append us (t :: vs), first⟩

/-- Each argument is a phrase of its own. -/
theorem exists_infix (h : Phrase .arguments us es) :
    ∀ a ∈ es, ∃ ws, ws <:+: us ∧ Phrase (.chain .sum) ws [a] := by
  -- the category is kept in an equation, since only lists of arguments have parts to look at
  generalize hk : Category.arguments = k at h
  induction h with
  | @last us b only =>
    intro a ha
    cases List.mem_singleton.mp ha
    exact ⟨us, List.infix_rfl, only⟩
  | @comma t us vs b es first _ _ _ ihothers =>
    intro a ha
    rcases List.mem_cons.mp ha with rfl | ha
    · exact ⟨us, (List.prefix_append us (t :: vs)).isInfix, first⟩
    · rcases ihothers rfl a ha with ⟨ws, hws, hphrase⟩
      have hsuffix : vs <:+ us ++ t :: vs := ⟨us ++ [t], by simp⟩
      exact ⟨ws, hws.trans hsuffix.isInfix, hphrase⟩
  | _ => cases hk

/-- Between an argument and the next there is a comma and nothing else. -/
theorem isChain_comma (h : Phrase .arguments us es) :
    es.IsChain fun a b => ∃ ws m vs, ws ++ m :: vs <:+: us ∧ Phrase (.chain .sum) ws [a] ∧
      m.kind = .comma ∧ Phrase (.chain .sum) vs [b] := by
  generalize hk : Category.arguments = k at h
  induction h with
  | last => exact .singleton _
  | @comma t us vs a es first ht others _ ihothers =>
    have hsuffix : vs <:+ us ++ t :: vs := ⟨us ++ [t], by simp⟩
    -- within the rest of the list the pairs are there already, and the comma joins one more in
    -- front
    refine List.IsChain.cons ((ihothers rfl).imp ?_) ?_
    · rintro b c ⟨ws, m, vs', hpart, hphrases⟩
      exact ⟨ws, m, vs', hpart.trans hsuffix.isInfix, hphrases⟩
    · intro b hb
      rcases others.exists_prefix b hb with ⟨ws, ⟨ys, rfl⟩, hphrase⟩
      exact ⟨us, t, ws, ⟨[], ys, by simp⟩, first, ht, hphrase⟩
  | _ => cases hk

end Phrase

/-! ## The arguments of an outcome -/

variable {fin : Token} {ts : List Token} {a : Attempt} {es : List Expr}

theorem BodyReads.exists_phrase (h : BodyReads fin ts a) (hsigned : ∀ t ∈ ts, t.Signed)
    (ha : a.draft.arguments? = some es) :
    es = [] ∨ ∃ us, us <:+: ts ∧ Phrase .arguments us es := by
  cases h with
  | no_literal => cases ha
  | bare =>
    cases ha
    exact .inl rfl
  | arguments_error => cases ha
  | @supplied t m ts rest _ _ _ inner =>
    cases ha
    obtain ⟨us, rfl, hus⟩ := inner.phrased rfl fun u hu => hsigned u (by simp [hu])
    exact .inr ⟨us, ⟨[t, m], rest, by simp⟩, hus⟩

/-- The arguments of an attempt are read completely, even if the attempt fails behind them. -/
theorem Attempts.exists_phrase (h : Attempts fin ts a) (hsigned : ∀ t ∈ ts, t.Signed)
    (ha : a.draft.arguments? = some es) :
    es = [] ∨ ∃ us, us <:+: ts ∧ Phrase .arguments us es := by
  -- the fault, if any, is outside of the body, so each case is that of the body
  have hbody : ∀ {mid : List Token} {inner : Attempt},
      Expects fin [.printf, .lparen] ts none mid → BodyReads fin mid inner →
        inner.draft.arguments? = some es →
          es = [] ∨ ∃ us, us <:+: ts ∧ Phrase .arguments us es := by
    intro mid inner before body hinner
    have hsuffix := before.suffix
    rcases body.exists_phrase (fun t ht => hsigned t (hsuffix.mem ht)) hinner with
      hnil | ⟨us, hus, hphrase⟩
    · exact .inl hnil
    · exact .inr ⟨us, hus.trans hsuffix.isInfix, hphrase⟩
  cases h with
  | opening => cases ha
  | body_error before body => exact hbody before body ha
  | closing before body => exact hbody before body ha
  | trailing before body => exact hbody before body ha
  | done before body => exact hbody before body ha

theorem Attempt.arguments_outcome (propagate : Bool) (a : Attempt) :
    (a.outcome propagate).arguments = a.draft.typedArguments propagate [] := by
  unfold outcome
  split <;> rfl

/-- The arguments of an outcome, if there are any, are those of a list among the tokens. -/
theorem TokenSeq.exists_phrase {s : TokenSeq} (hsigned : ∀ t ∈ s.body, t.Signed)
    (propagate : Bool) : (s.outcome propagate).arguments = [] ∨
      ∃ us es, us <:+: s.body ∧ Phrase .arguments us es ∧
        (s.outcome propagate).arguments = es.map (Expr.argument propagate) := by
  have hattempts := s.attempts_attempt
  rw [outcome, Attempt.arguments_outcome, Draft.typedArguments]
  -- arguments that were not read leave nothing to speak of
  cases hes : s.attempt.draft.arguments? with
  | none => exact .inl rfl
  | some es =>
    rcases hattempts.exists_phrase hsigned hes with rfl | ⟨us, hus, hphrase⟩
    · exact .inl rfl
    · exact .inr ⟨us, es, hus, hphrase, rfl⟩

end PrintfLint
