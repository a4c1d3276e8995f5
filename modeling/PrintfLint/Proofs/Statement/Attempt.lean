import PrintfLint.Outcome
import PrintfLint.Proofs.Statement.Phrase

/-!
# PrintfLint.Proofs.Statement.Attempt — statements and their readers

* `Expects`, `BodyReads`, `Attempts` — what the readers of a statement can do, one rule for each
  branch;
* `Attempts.statement_eq` — they leave no choice;
* `IsStatement` — the token strings that are statements, with the literal and the arguments;
* `attempt_of_isStatement` — a statement is read without error, literal and arguments included;
* `Attempts.isStatement` — only statements are.
-/

namespace PrintfLint

variable {fin : Token}

/-! ## Tokens of given kinds -/

/-- The tokens of given kinds are there, or one of them is missing. -/
inductive Expects (fin : Token) :
    List Kind → List Token → Option GrammarError → List Token → Prop where
  | nil {ts : List Token} : Expects fin [] ts none ts
  | cons {k : Kind} {ks : List Kind} {t : Token} {ts rest : List Token}
      {e : Option GrammarError} (ht : t.kind = k) (more : Expects fin ks ts e rest) :
      Expects fin (k :: ks) (t :: ts) e rest
  | missing {k : Kind} {ks : List Kind} {ts : List Token} (hne : ∀ t ∈ ts.head?, t.kind ≠ k) :
      Expects fin (k :: ks) ts (some ⟨.kind k, ts.headD fin⟩) ts

namespace Attempt

theorem expectAll_cons {k : Kind} {t : Token} (ht : t.kind = k) (hk : k ≠ .endOfInput)
    (ks : List Kind) (ts : List Token) :
    expectAll fin (k :: ks) (t :: ts) = expectAll fin ks ts := by
  rw [expectAll, Reading.expect_cons ht hk]

theorem expectAll_missing {k : Kind} (hfin : fin.kind ≠ k) {ts : List Token}
    (hne : ∀ t ∈ ts.head?, t.kind ≠ k) (ks : List Kind) :
    expectAll fin (k :: ks) ts = (some ⟨.kind k, ts.headD fin⟩, ts) := by
  rw [expectAll, Reading.expect_of_ne hfin hne]

theorem expects_expectAll (hfin : fin.kind = .endOfInput) {ks : List Kind}
    (hks : .endOfInput ∉ ks) (ts : List Token) :
    Expects fin ks ts (expectAll fin ks ts).1 (expectAll fin ks ts).2 := by
  induction ks generalizing ts with
  | nil => exact .nil
  | cons k ks ih =>
    rcases List.ne_and_not_mem_of_not_mem_cons hks with ⟨hk, hks⟩
    -- the next token is of the kind that is due, or it is missing
    rcases Reading.eq_cons_or_head?_ne k ts with ⟨t, rest, rfl, ht⟩ | hne
    · rw [expectAll_cons ht hk.symm]
      exact .cons ht (ih hks rest)
    · have hfin : fin.kind ≠ k := by rwa [hfin]
      rw [expectAll_missing hfin hne]
      exact .missing hne

theorem expectAll_append (fin : Token) (ks ks' : List Kind) (ts : List Token) :
    expectAll fin (ks ++ ks') ts =
      match expectAll fin ks ts with
      | (some e, rest) => (some e, rest)
      | (none, rest) => expectAll fin ks' rest := by
  -- the first fault ends the whole, be it in the first part or in the second
  induction ks generalizing ts with
  | nil => rfl
  | cons k ks ih =>
    rw [List.cons_append, expectAll, expectAll]
    split
    · rfl
    · exact ih _

/-- An end-of-input token is there where nothing else is. -/
theorem expectAll_endOfInput (hfin : fin.kind = .endOfInput) {ts : List Token}
    (hend : ∀ t ∈ ts.head?, t.kind = .endOfInput) :
    expectAll fin [.endOfInput] ts = (none, ts) := by
  cases ts with
  | nil => simp [expectAll, Reading.expect, Reading.pass, hfin]
  | cons t ts =>
    have ht : t.kind = .endOfInput := hend t rfl
    simp [expectAll, Reading.expect, Reading.pass, ht]

theorem expectAll_trailing {t : Token} (ht : t.kind ≠ .endOfInput) (ts : List Token) :
    expectAll fin [.endOfInput] (t :: ts) = (some ⟨.kind .endOfInput, t⟩, t :: ts) := by
  simp [expectAll, Reading.expect, ht]

end Attempt

/-- Tokens that are there are of the given kinds. -/
theorem Expects.exists_append {ks : List Kind} {ts rest : List Token} {e : Option GrammarError}
    (h : Expects fin ks ts e rest) (he : e = none) :
    ∃ us, ts = us ++ rest ∧ us.map Token.kind = ks := by
  induction h with
  | nil => exact ⟨[], rfl, rfl⟩
  | @cons k ks t ts rest e ht _ ih =>
    rcases ih he with ⟨us, rfl, hus⟩
    exact ⟨t :: us, rfl, by rw [List.map_cons, ht, hus]⟩
  | missing => cases he

/-! ## What stands between the parentheses -/

/-- The body of a statement: a literal, and arguments if a comma follows it. -/
inductive BodyReads (fin : Token) : List Token → Attempt → Prop where
  | no_literal {ts : List Token} (hne : ∀ t ∈ ts.head?, t.kind ≠ .literal) :
      BodyReads fin ts ⟨{}, some ⟨.kind .literal, ts.headD fin⟩, ts⟩
  | bare {t : Token} {ts : List Token} (ht : t.kind = .literal)
      (hstop : ∀ m ∈ ts.head?, m.kind ≠ .comma) :
      BodyReads fin (t :: ts) ⟨⟨some t, some []⟩, none, ts⟩
  | arguments_error {t m : Token} {ts rest : List Token} {e : GrammarError}
      (ht : t.kind = .literal) (hm : m.kind = .comma)
      (inner : Reads fin .arguments ts (.error e) rest) :
      BodyReads fin (t :: m :: ts) ⟨⟨some t, none⟩, some e, rest⟩
  | supplied {t m : Token} {ts rest : List Token} {es : List Expr} (ht : t.kind = .literal)
      (hm : m.kind = .comma) (inner : Reads fin .arguments ts (.ok es) rest) :
      BodyReads fin (t :: m :: ts) ⟨⟨some t, some es⟩, none, rest⟩

/-- A statement: what stands around the body is there or is missing, and the body breaks off or is
complete. -/
inductive Attempts (fin : Token) : List Token → Attempt → Prop where
  | opening {ts rest : List Token} {e : GrammarError}
      (before : Expects fin [.printf, .lparen] ts (some e) rest) :
      Attempts fin ts ⟨{}, some e, rest⟩
  | body_error {ts mid : List Token} {inner : Attempt} {e : GrammarError}
      (before : Expects fin [.printf, .lparen] ts none mid) (body : BodyReads fin mid inner)
      (he : inner.error? = some e) : Attempts fin ts inner
  | closing {ts mid rest : List Token} {inner : Attempt} {e : GrammarError}
      (before : Expects fin [.printf, .lparen] ts none mid) (body : BodyReads fin mid inner)
      (hnone : inner.error? = none)
      (after : Expects fin [.rparen, .semicolon] inner.rest (some e) rest) :
      Attempts fin ts ⟨inner.draft, some e, rest⟩
  | trailing {ts mid rest : List Token} {inner : Attempt} {t : Token}
      (before : Expects fin [.printf, .lparen] ts none mid) (body : BodyReads fin mid inner)
      (hnone : inner.error? = none)
      (after : Expects fin [.rparen, .semicolon] inner.rest none (t :: rest))
      (ht : t.kind ≠ .endOfInput) :
      Attempts fin ts ⟨inner.draft, some ⟨.kind .endOfInput, t⟩, t :: rest⟩
  | done {ts mid rest : List Token} {inner : Attempt}
      (before : Expects fin [.printf, .lparen] ts none mid) (body : BodyReads fin mid inner)
      (hnone : inner.error? = none)
      (after : Expects fin [.rparen, .semicolon] inner.rest none rest)
      (hend : ∀ t ∈ rest.head?, t.kind = .endOfInput) :
      Attempts fin ts ⟨inner.draft, none, rest⟩

namespace Attempt

theorem body_bare {t : Token} (ht : t.kind = .literal) {ts : List Token}
    (hstop : ∀ m ∈ ts.head?, m.kind ≠ .comma) :
    body fin (t :: ts) = ⟨⟨some t, some []⟩, none, ts⟩ := by
  have hcomma := Reading.startsWith_eq_false_iff.mpr hstop
  rw [body, Reading.expect_cons ht (by decide)]
  simp only [hcomma, Bool.false_eq_true, if_false]

theorem body_supplied {t m : Token} (ht : t.kind = .literal) (hm : m.kind = .comma)
    (ts : List Token) :
    body fin (t :: m :: ts) =
      match (Reading.arguments fin ts).result with
      | (.error e, rest) => ⟨⟨some t, none⟩, some e, rest⟩
      | (.ok es, rest) => ⟨⟨some t, some es⟩, none, rest⟩ := by
  have hcomma : Reading.startsWith .comma (m :: ts) = true := by
    simpa [Reading.startsWith] using hm
  have hliteral : (Reading.expect fin .literal (t :: m :: ts)).result = (.ok t, m :: ts) :=
    Reading.expect_cons ht (by decide)
  rcases hargs : (Reading.arguments fin ts).result with ⟨_ | _, rest⟩ <;>
    simp [body, hliteral, hcomma, hargs]

section

variable (hfin : fin.kind = .endOfInput)

include hfin

theorem bodyReads_body (ts : List Token) : BodyReads fin ts (body fin ts) := by
  have hne : fin.kind ≠ .literal := by simp [hfin]
  -- a body is a literal, and arguments if there is a comma behind it
  rcases Reading.eq_cons_or_head?_ne .literal ts with ⟨t, ts, rfl, ht⟩ | hmissing
  · rcases Reading.eq_cons_or_head?_ne .comma ts with ⟨m, ts, rfl, hm⟩ | hstop
    · have hinner := Reading.reads_arguments hfin ts
      rw [body_supplied ht hm]
      cases h : Reading.arguments fin ts with
      | fail e rest _ =>
        rw [h] at hinner
        exact .arguments_error ht hm hinner
      | ok es rest _ =>
        rw [h] at hinner
        exact .supplied ht hm hinner
    · rw [body_bare ht hstop]
      exact .bare ht hstop
  · rw [body, Reading.expect_of_ne hne hmissing]
    exact .no_literal hmissing

/-- What the end of input is read as, after everything else. -/
theorem attempts_end {ts mid rest : List Token} {inner : Attempt}
    (hopening : Expects fin [.printf, .lparen] ts none mid) (hbody : BodyReads fin mid inner)
    (hnone : inner.error? = none)
    (hclosing : Expects fin [.rparen, .semicolon] inner.rest none rest) :
    Attempts fin ts ⟨inner.draft, (expectAll fin [.endOfInput] rest).1,
      (expectAll fin [.endOfInput] rest).2⟩ := by
  -- nothing is left but an end of input, or some other token comes first
  by_cases hend : ∀ t ∈ rest.head?, t.kind = .endOfInput
  · rw [expectAll_endOfInput hfin hend]
    exact .done hopening hbody hnone hclosing hend
  · cases rest with
    | nil => exact absurd (by simp) hend
    | cons t rest =>
      have ht : t.kind ≠ .endOfInput := by simpa using hend
      rw [expectAll_trailing ht]
      exact .trailing hopening hbody hnone hclosing ht

theorem attempts_statement (ts : List Token) : Attempts fin ts (statement fin ts) := by
  have hopening : Expects fin [.printf, .lparen] ts _ _ :=
    expects_expectAll hfin (by decide) ts
  rw [statement]
  -- the opening, the body and the closing are read in turn, and each may fail
  rcases hopen : expectAll fin [.printf, .lparen] ts with ⟨_ | e, mid⟩
  · rw [hopen] at hopening
    have hbody := bodyReads_body hfin mid
    simp only
    cases herror : (body fin mid).error? with
    | some e => exact .body_error hopening hbody herror
    | none =>
      have hclosing : Expects fin [.rparen, .semicolon] (body fin mid).rest _ _ :=
        expects_expectAll hfin (by decide) (body fin mid).rest
      have hsplit := expectAll_append fin [.rparen, .semicolon] [.endOfInput] (body fin mid).rest
      rw [List.cons_append, List.cons_append, List.nil_append] at hsplit
      simp only [hsplit]
      rcases hclose : expectAll fin [.rparen, .semicolon] (body fin mid).rest with ⟨_ | e, rest⟩
      · rw [hclose] at hclosing
        exact attempts_end hfin hopening hbody herror hclosing
      · rw [hclose] at hclosing
        exact .closing hopening hbody herror hclosing
  · rw [hopen] at hopening
    exact .opening hopening

end

end Attempt

/-- The attempt at a sequence follows the rules. -/
theorem TokenSeq.attempts_attempt (s : TokenSeq) : Attempts s.last s.body s.attempt :=
  Attempt.attempts_statement s.last_kind s.body

/-! ## The rules leave no choice -/

section

variable (hfin : fin.kind = .endOfInput)

include hfin

theorem Expects.expectAll_eq {ks : List Kind} {ts rest : List Token} {e : Option GrammarError}
    (h : Expects fin ks ts e rest) (hks : .endOfInput ∉ ks) :
    Attempt.expectAll fin ks ts = (e, rest) := by
  induction h with
  | nil => rfl
  | cons ht _ ih =>
    rcases List.ne_and_not_mem_of_not_mem_cons hks with ⟨hk, hks⟩
    rw [Attempt.expectAll_cons ht hk.symm]
    exact ih hks
  | missing hne =>
    rcases List.ne_and_not_mem_of_not_mem_cons hks with ⟨hk, _⟩
    exact Attempt.expectAll_missing (by rwa [hfin]) hne _

theorem BodyReads.body_eq {ts : List Token} {a : Attempt} (h : BodyReads fin ts a) :
    Attempt.body fin ts = a := by
  cases h with
  | no_literal hne =>
    have hkind : fin.kind ≠ .literal := by simp [hfin]
    rw [Attempt.body, Reading.expect_of_ne hkind hne]
  | bare ht hstop => exact Attempt.body_bare ht hstop
  | @arguments_error _ _ ts rest e ht hm inner =>
    have hread : (Reading.arguments fin ts).result = (.error e, rest) := inner.read_eq hfin
    rw [Attempt.body_supplied ht hm, hread]
  | @supplied _ _ ts rest es ht hm inner =>
    have hread : (Reading.arguments fin ts).result = (.ok es, rest) := inner.read_eq hfin
    rw [Attempt.body_supplied ht hm, hread]

/-- A statement is read as the rules say. -/
theorem Attempts.statement_eq {ts : List Token} {a : Attempt} (h : Attempts fin ts a) :
    Attempt.statement fin ts = a := by
  -- the end of input is read with the closing tokens, and its own fault is told apart
  have hclose : ∀ left : List Token,
      Attempt.expectAll fin [.rparen, .semicolon, .endOfInput] left =
        match Attempt.expectAll fin [.rparen, .semicolon] left with
        | (some e, rest) => (some e, rest)
        | (none, rest) => Attempt.expectAll fin [.endOfInput] rest :=
    fun left => Attempt.expectAll_append fin [.rparen, .semicolon] [.endOfInput] left
  rw [Attempt.statement]
  cases h with
  | opening before => rw [before.expectAll_eq hfin (by decide)]
  | body_error before body he =>
    rw [before.expectAll_eq hfin (by decide)]
    simp only [body.body_eq hfin, he]
  | closing before body hnone after =>
    rw [before.expectAll_eq hfin (by decide)]
    simp only [body.body_eq hfin, hnone, hclose, after.expectAll_eq hfin (by decide)]
  | trailing before body hnone after ht =>
    rw [before.expectAll_eq hfin (by decide)]
    simp only [body.body_eq hfin, hnone, hclose, after.expectAll_eq hfin (by decide),
      Attempt.expectAll_trailing ht]
  | done before body hnone after hend =>
    rw [before.expectAll_eq hfin (by decide)]
    simp only [body.body_eq hfin, hnone, hclose, after.expectAll_eq hfin (by decide),
      Attempt.expectAll_endOfInput hfin hend]

end

/-! ## Where a reading breaks off -/

theorem Expects.suffix {ks : List Kind} {ts rest : List Token} {e : Option GrammarError}
    (h : Expects fin ks ts e rest) : rest <:+ ts := by
  induction h with
  | nil => exact List.suffix_rfl
  | cons _ _ ih => exact ih.trans (List.suffix_cons ..)
  | missing => exact List.suffix_rfl

theorem Expects.found_eq {ks : List Kind} {ts rest : List Token} {e : Option GrammarError}
    (h : Expects fin ks ts e rest) {e' : GrammarError} (he : e = some e') :
    e'.found = rest.headD fin := by
  induction h with
  | nil => cases he
  | cons _ _ ih => exact ih he
  | missing =>
    cases he
    rfl

theorem BodyReads.suffix {ts : List Token} {a : Attempt} (h : BodyReads fin ts a) :
    a.rest <:+ ts := by
  cases h with
  | no_literal => exact List.suffix_rfl
  | bare => exact List.suffix_cons ..
  | @arguments_error t m _ _ _ _ _ inner => exact inner.suffix.trans ⟨[t, m], rfl⟩
  | @supplied t m _ _ _ _ _ inner => exact inner.suffix.trans ⟨[t, m], rfl⟩

theorem BodyReads.found_eq {ts : List Token} {a : Attempt} (h : BodyReads fin ts a)
    {e : GrammarError} (he : a.error? = some e) : e.found = a.rest.headD fin := by
  cases h with
  | no_literal =>
    cases he
    rfl
  | bare => cases he
  | arguments_error _ _ inner =>
    cases he
    exact inner.found_eq rfl
  | supplied => cases he

theorem Attempts.suffix {ts : List Token} {a : Attempt} (h : Attempts fin ts a) :
    a.rest <:+ ts := by
  cases h with
  | opening before => exact before.suffix
  | body_error before body => exact body.suffix.trans before.suffix
  | closing before body _ after => exact after.suffix.trans (body.suffix.trans before.suffix)
  | trailing before body _ after => exact after.suffix.trans (body.suffix.trans before.suffix)
  | done before body _ after => exact after.suffix.trans (body.suffix.trans before.suffix)

/-- The token that an error reports is the first that is left. -/
theorem Attempts.found_eq {ts : List Token} {a : Attempt} (h : Attempts fin ts a)
    {e : GrammarError} (he : a.error? = some e) : e.found = a.rest.headD fin := by
  cases h with
  | opening before =>
    cases he
    exact before.found_eq rfl
  | body_error _ body => exact body.found_eq he
  | closing _ _ _ after =>
    cases he
    exact after.found_eq rfl
  | trailing =>
    cases he
    rfl
  | done => cases he

/-! ## Statements -/

/-- The tokens of a statement and of the end of input, with the literal and the arguments. -/
inductive IsStatement : List Token → Token → List Expr → Prop where
  | bare {p o t c s e : Token} (hp : p.kind = .printf) (ho : o.kind = .lparen)
      (ht : t.kind = .literal) (hc : c.kind = .rparen) (hs : s.kind = .semicolon)
      (he : e.kind = .endOfInput) : IsStatement [p, o, t, c, s, e] t []
  | supplied {p o t m c s e : Token} {us : List Token} {es : List Expr} (hp : p.kind = .printf)
      (ho : o.kind = .lparen) (ht : t.kind = .literal) (hm : m.kind = .comma)
      (inner : Phrase .arguments us es) (hc : c.kind = .rparen) (hs : s.kind = .semicolon)
      (he : e.kind = .endOfInput) :
      IsStatement (p :: o :: t :: m :: (us ++ [c, s, e])) t es

namespace Attempt

/-- What stands around the body is read. -/
theorem statement_of_body (hfin : fin.kind = .endOfInput) {p o c s : Token}
    (hp : p.kind = .printf) (ho : o.kind = .lparen) (hc : c.kind = .rparen)
    (hs : s.kind = .semicolon) {mid : List Token} {d : Draft}
    (hbody : body fin mid = ⟨d, none, [c, s]⟩) :
    statement fin (p :: o :: mid) = ⟨d, none, []⟩ := by
  have hopening : expectAll fin [.printf, .lparen] (p :: o :: mid) = (none, mid) := by
    rw [expectAll_cons hp (by decide), expectAll_cons ho (by decide), expectAll]
  have hclosing : expectAll fin [.rparen, .semicolon, .endOfInput] [c, s] = (none, []) := by
    rw [expectAll_cons hc (by decide), expectAll_cons hs (by decide)]
    exact expectAll_endOfInput hfin (by simp)
  rw [statement, hopening]
  simp only [hbody, hclosing]

end Attempt

/-- A statement is read without error. -/
theorem attempt_of_isStatement {ts : List Token} {lit : Token} {es : List Expr}
    (hfin : fin.kind = .endOfInput) (h : IsStatement (ts ++ [fin]) lit es) :
    Attempt.statement fin ts = ⟨⟨some lit, some es⟩, none, []⟩ := by
  generalize hall : ts ++ [fin] = all at h
  cases h with
  | @bare p o _ c s e hp ho ht hc hs he =>
    -- the tokens end with the end of input, so the others are those in front of it
    obtain ⟨rfl, rfl⟩ : ts = [p, o, lit, c, s] ∧ fin = e := by
      have hsplit : ts ++ [fin] = [p, o, lit, c, s] ++ [e] := hall
      simpa using List.append_inj' hsplit rfl
    apply Attempt.statement_of_body hfin hp ho hc hs
    have hstop : ∀ m ∈ [c, s].head?, m.kind ≠ .comma := by simp [hc]
    exact Attempt.body_bare ht hstop
  | @supplied p o _ m c s e us _ hp ho ht hm inner hc hs he =>
    obtain ⟨rfl, rfl⟩ : ts = p :: o :: lit :: m :: (us ++ [c, s]) ∧ fin = e := by
      have hsplit : ts ++ [fin] = p :: o :: lit :: m :: (us ++ [c, s]) ++ [e] := by
        rw [hall]
        simp
      simpa using List.append_inj' hsplit rfl
    apply Attempt.statement_of_body hfin hp ho hc hs
    -- the arguments end before the parenthesis, because no expression goes on with one
    have hread : (Reading.arguments fin (us ++ [c, s])).result = (.ok es, [c, s]) :=
      (inner.reads (ends_of_rparen hc us [s])).read_eq hfin
    rw [Attempt.body_supplied ht hm, hread]

theorem exists_pair {us : List Token} {k l : Kind} (h : us.map Token.kind = [k, l]) :
    ∃ t u, us = [t, u] ∧ t.kind = k ∧ u.kind = l := by
  rcases List.map_eq_cons_iff.mp h with ⟨t, us, rfl, ht, hus⟩
  rcases List.map_eq_cons_iff.mp hus with ⟨u, us, rfl, hu, hnil⟩
  rw [List.map_eq_nil_iff.mp hnil]
  exact ⟨t, u, rfl, ht, hu⟩

/-- What is read without error is a statement. -/
theorem Attempts.isStatement {ts : List Token} {a : Attempt} (h : Attempts fin ts a)
    (ha : a.error? = none) (hfin : fin.kind = .endOfInput) (hts : ∀ t ∈ ts, t.Regular) :
    ∃ lit es, IsStatement (ts ++ [fin]) lit es ∧ a = ⟨⟨some lit, some es⟩, none, []⟩ := by
  cases h with
  | opening => cases ha
  | body_error _ _ he =>
    rw [ha] at he
    cases he
  | closing => cases ha
  | trailing => cases ha
  | @done mid rest inner before body hnone after hlast =>
    rcases before.exists_append rfl with ⟨us, rfl, hus⟩
    rcases exists_pair hus with ⟨p, o, rfl, hp, ho⟩
    rcases after.exists_append rfl with ⟨vs, hvs, hkinds⟩
    rcases exists_pair hkinds with ⟨c, s, rfl, hc, hs⟩
    -- nothing is left, since the end of input comes nowhere but at the end
    have hrest : (∀ t ∈ rest, t ∈ mid) → rest = [] := by
      intro hsub
      cases rest with
      | nil => rfl
      | cons t rest =>
        have ht := hsub t List.mem_cons_self
        exact absurd (hlast t rfl) (hts t (List.mem_append_right _ ht)).kind_ne
    cases body with
    | no_literal => cases hnone
    | @bare t ts ht hstop =>
      have hvs : ts = [c, s] ++ rest := hvs
      obtain rfl := hrest fun u hu => by simp [hvs, hu]
      rw [hvs]
      exact ⟨t, [], .bare hp ho ht hc hs hfin, rfl⟩
    | arguments_error => cases hnone
    | @supplied t m ts left es ht hm inner =>
      have hvs : left = [c, s] ++ rest := hvs
      obtain ⟨ws, rfl, hws⟩ := inner.phrased rfl fun u hu => (hts u (by simp [hu])).signed
      obtain rfl := hrest fun u hu => by simp [hvs, hu]
      have hphrase : Phrase .arguments ws es := hws
      refine ⟨t, es, ?_, rfl⟩
      rw [hvs]
      simpa using IsStatement.supplied hp ho ht hm hphrase hc hs hfin

end PrintfLint
