import PrintfLint.Proofs.Statement.Extent
import PrintfLint.Proofs.Statement.Opening
import PrintfLint.Proofs.Statement.Session

/-!
# PrintfLint.Proofs.Statement.AllOrNothing — what a judgement keeps of a statement that breaks off

* `Session.Enumerates` — expressions with commas between them, each read by a command of its own;
* `Session.enumerates_of_reads`, `Session.Enumerates.exists_reads` — such a list is what the reader
  of arguments reads;
* `Session.Supplied` — the arguments of the outer call, if it has them all;
* `Session.Unclosed` — the call is not closed behind its arguments;
* `Session.judge_allOrNothing` — a judgement that finds a fault of the grammar keeps all arguments
  if the fault is behind them, and none otherwise.

The reader of arguments is the same for the outer call and for calls in it. What tells them apart
is where the list starts: that of the outer call is read from the comma behind the literal on.
-/

namespace PrintfLint

/-- Tokens of given kinds are there up to one that is missing. -/
theorem Expects.exists_missing {fin : Token} {ks : List Kind} {ts rest : List Token}
    {e : Option GrammarError} (h : Expects fin ks ts e rest) {e' : GrammarError}
    (he : e = some e') :
    ∃ us k others, ts = us ++ rest ∧ us.map Token.kind ++ k :: others = ks ∧
      (∀ t ∈ rest.head?, t.kind ≠ k) ∧ e' = ⟨.kind k, rest.headD fin⟩ := by
  -- the missing kind is the first one that is not there, and all before it are
  induction h with
  | nil => cases he
  | @cons k ks t ts rest e ht _ ih =>
    rcases ih he with ⟨us, k', others, rfl, hkinds, hne, rfl⟩
    refine ⟨t :: us, k', others, rfl, ?_, hne, rfl⟩
    rw [List.map_cons, ht, List.cons_append, hkinds]
  | @missing k ks ts hne =>
    cases he
    exact ⟨[], k, ks, rfl, rfl, hne, rfl⟩

/-- A missing closing token is the first of those that should close the statement and do not. -/
theorem Expects.exists_missing_closing {fin : Token} {left rest : List Token} {e : GrammarError}
    (hfin : fin.kind = .endOfInput) (h : Expects fin [.rparen, .semicolon] left (some e) rest) :
    ∃ us k others, left = us ++ rest ∧
      us.map Token.kind ++ k :: others = [.rparen, .semicolon, .endOfInput] ∧
      (rest.headD fin).kind ≠ k ∧ e = ⟨.kind k, rest.headD fin⟩ := by
  obtain ⟨us, k, others, hsplit, hkinds, hne, rfl⟩ := h.exists_missing rfl
  have hk : k ≠ .endOfInput := by
    -- the end of input is none of the two, and what is missing is one of them
    rintro rfl
    have hmem : Kind.endOfInput ∈ [Kind.rparen, Kind.semicolon] := by simp [← hkinds]
    revert hmem
    decide
  have hall : us.map Token.kind ++ k :: (others ++ [.endOfInput]) =
      [.rparen, .semicolon, .endOfInput] := by
    rw [← List.cons_append, ← List.append_assoc, hkinds]
    rfl
  refine ⟨us, k, others ++ [.endOfInput], hsplit, hall, ?_, rfl⟩
  cases rest with
  | nil =>
    rw [List.headD_nil, hfin]
    exact hk.symm
  | cons t rest => exact hne t rfl

namespace Session

/-! ## Lists of expressions -/

/-- From one session to the other there are expressions with commas between them, and no comma
behind them. -/
inductive Enumerates : Session → List Argument → Session → Prop where
  | last {s s' : Session} {a : Argument} (only : s.perform .expression = (.ok (.argument a), s'))
      (hstop : s'.current.kind ≠ .comma) : Enumerates s [a] s'
  | comma {s mid s' : Session} {a : Argument} {as : List Argument}
      (first : s.perform .expression = (.ok (.argument a), mid))
      (hcomma : mid.current.kind = .comma) (others : Enumerates (mid.perform .advance).2 as s') :
      Enumerates s (a :: as) s'

section

variable {s s' : Session} {left ts : List Token}

/-- After an expression, what the loop reads is the rest of a list. -/
theorem enumerates_of_reads_from {task : Task} {r : Except GrammarError (List Expr)}
    (h : Reads s.tokens.last task ts r left) (htask : task = .argumentsFrom) {es : List Expr}
    (hr : r = .ok es) {e : Expr} {t : Session} (ht : t.tokens = s.tokens)
    (hfirst : Reads t.tokens.last (.chain .sum) t.rest (.ok [e]) ts) :
    t.Enumerates ((e :: es).map (Expr.argument t.propagate)) (t.moveTo left) := by
  -- a comma is passed over, and the list goes on from the session behind it
  induction h generalizing e es t with
  | arguments_end hstop =>
    cases hr
    refine .last (perform_expression_of_reads hfirst) ?_
    rw [current_kind_ne_iff (by decide), rest_moveTo hfirst.suffix]
    exact hstop
  | @comma_from m ts mid rest b r hm hnext hmore _ ihmore =>
    rcases map_eq_ok hr with ⟨es', rfl, rfl⟩
    have hrest := rest_moveTo hfirst.suffix
    have hcurrent : (t.moveTo (m :: ts)).current.kind = .comma := by
      rw [current, hrest]
      exact hm
    have hadvance := perform_advance hrest (by simp [hm])
    have hsuffix := List.suffix_cons m ts
    rw [moveTo_moveTo hfirst.suffix hsuffix] at hadvance
    have hbehind := rest_moveTo (hsuffix.trans hfirst.suffix)
    have hlist := ihmore rfl rfl (t := t.moveTo ts) ht (by rw [hbehind]; exact ht ▸ hnext)
    rw [moveTo_moveTo (hsuffix.trans hfirst.suffix) (hmore.suffix.trans hnext.suffix)] at hlist
    refine .comma (perform_expression_of_reads hfirst) hcurrent ?_
    rw [hadvance]
    exact hlist
  | comma_error => cases hr
  | _ => cases htask

/-- What the reader of arguments reads is a list. -/
theorem enumerates_of_reads {es : List Expr}
    (h : Reads s.tokens.last .arguments s.rest (.ok es) left) :
    s.Enumerates (s.typed es) (s.moveTo left) := by
  generalize hr : Except.ok es = r at h
  cases h with
  | arguments_error => cases hr
  | arguments_from hfirst hmore =>
    rcases map_eq_ok hr.symm with ⟨es', rfl, rfl⟩
    exact enumerates_of_reads_from hmore rfl rfl rfl hfirst

/-- A list is read by the reader of arguments. -/
theorem Enumerates.exists_reads {as : List Argument} (h : s.Enumerates as s') :
    ∃ es left, Reads s.tokens.last .arguments s.rest (.ok es) left ∧ as = s.typed es ∧
      s' = s.moveTo left := by
  -- along the list: each argument is one command, and the place behind it is where the next one
  -- starts
  induction h with
  | @last s s' a only hstop =>
    obtain ⟨e, left, hread, ha, rfl⟩ := perform_expression_eq_ok_iff.mp only
    cases ha
    rw [current_kind_ne_iff (by decide), rest_moveTo hread.suffix] at hstop
    exact ⟨[e], left, .arguments_from hread (.arguments_end hstop), rfl, rfl⟩
  | @comma s mid s' a as first hcomma _ ih =>
    obtain ⟨e, left, hread, ha, rfl⟩ := perform_expression_eq_ok_iff.mp first
    cases ha
    -- the comma is in front of what the first argument left, so it is passed over
    rcases rest_of_current (by decide) hcomma with ⟨m, ts, hrest, hm⟩
    have hmid := rest_moveTo hread.suffix
    have hleft : left = m :: ts := hmid.symm.trans hrest
    subst hleft
    have hsuffix := List.suffix_cons m ts
    have hadvance := perform_advance hmid (by simp [hm])
    rw [moveTo_moveTo hread.suffix hsuffix] at hadvance
    rw [hadvance] at ih
    obtain ⟨es, left, hothers, rfl, rfl⟩ := ih
    have hbehind := rest_moveTo (hsuffix.trans hread.suffix)
    rw [hbehind] at hothers
    refine ⟨e :: es, left, .arguments_from hread (hothers.after_comma hm), rfl, ?_⟩
    exact moveTo_moveTo (hsuffix.trans hread.suffix) hothers.suffix

end

/-! ## The outer call -/

/-- The arguments of the outer call are complete, and end before index `j`: there are none if no
comma follows the literal, and otherwise all that are listed from behind the comma on. -/
inductive Supplied (p : Session) : List Argument → ℕ → Prop where
  | bare {literal m : Token} (hopens : Opens p.tokens.toList literal)
      (hm : p.tokens.toList[3]? = some m) (hstop : m.kind ≠ .comma) : Supplied p [] 3
  | listed {literal m : Token} {as : List Argument} {s' : Session}
      (hopens : Opens p.tokens.toList literal) (hm : p.tokens.toList[3]? = some m)
      (hcomma : m.kind = .comma) (list : Enumerates { p with index := 4 } as s') :
      Supplied p as s'.index

/-- The outer call is not closed from index `j` on: after the tokens `us`, which are as they should
be, another token is found in place of the missing one, and this is what the judgement reports. -/
structure Unclosed (p : Session) (j : ℕ) (us : List Token) (missing : Kind) (found : Token) :
    Prop where
  tokens_eq : ∃ rest, p.tokens.toList.drop j = us ++ found :: rest
  kinds_eq : ∃ others,
    us.map Token.kind ++ missing :: others = [.rparen, .semicolon, .endOfInput]
  kind_ne : found.kind ≠ missing
  index_eq : p.judge.2.index = j + us.length
  problem_eq : p.judge.1.problem? = some (GrammarError.problem ⟨.kind missing, found⟩)

section

variable {p : Session} {a : Attempt} {as : List Argument} {mid : List Token}

/-- A body that is read without error has its arguments completely. -/
theorem supplied_of_bodyReads {q o : Token} (hbody : p.tokens.body = q :: o :: mid)
    (hq : q.kind = .printf) (ho : o.kind = .lparen) (h : BodyReads p.tokens.last mid a)
    (hnone : a.error? = none) :
    p.Supplied (a.draft.typedArguments p.propagate []) (p.tokens.body.length - a.rest.length) := by
  have hlast := p.tokens.last_kind
  -- with the two tokens in front of the body, the literal is the third token
  have hopens : ∀ {t : Token} {ts : List Token}, mid = t :: ts → t.kind = .literal →
      Opens p.tokens.toList t := by
    rintro t ts rfl ht
    rw [TokenSeq.toList, hbody]
    exact opens_of_body hq ho ht ts
  -- by how the body was read; only a body that is complete has no error
  cases h with
  | no_literal => cases hnone
  | @bare t ts ht hstop =>
    -- the token behind the literal is no comma, be it a token of the line or the last one
    have hfour : p.tokens.toList[3]? = some (ts.headD p.tokens.last) := by
      rw [TokenSeq.toList, hbody]
      cases ts <;> rfl
    have hne : (ts.headD p.tokens.last).kind ≠ .comma := by
      cases ts with
      | nil => simp [hlast]
      | cons m ts => exact hstop m rfl
    have hindex : p.tokens.body.length - ts.length = 3 := by
      rw [hbody, List.length_cons, List.length_cons, List.length_cons]
      omega
    rw [hindex]
    exact .bare (hopens rfl ht) hfour hne
  | arguments_error => cases hnone
  | @supplied t m ts rest es ht hm inner =>
    -- behind the comma the list starts at the fifth token
    have hfour : p.tokens.toList[3]? = some m := by
      rw [TokenSeq.toList, hbody]
      rfl
    have hbehind : ({ p with index := 4 } : Session).rest = ts := by
      change p.tokens.body.drop 4 = ts
      rw [hbody]
      rfl
    have hlist : ({ p with index := 4 } : Session).Enumerates _ _ :=
      enumerates_of_reads (hbehind.symm ▸ inner)
    have hindex : p.tokens.body.length - rest.length =
        (({ p with index := 4 } : Session).moveTo rest).index := by
      have hle := inner.suffix.length_le
      rw [moveTo, hbehind, hbody]
      simp only [List.length_cons]
      omega
    rw [hindex]
    exact .listed (hopens rfl ht) hfour hm hlist

/-- Where the arguments are complete, the body is read without error. -/
theorem Supplied.exists_bodyReads {j : ℕ} (h : p.Supplied as j) :
    ∃ q o mid a, p.tokens.body = q :: o :: mid ∧ q.kind = .printf ∧ o.kind = .lparen ∧
      BodyReads p.tokens.last mid a ∧ a.error? = none := by
  cases h with
  | @bare literal m hopens hm hstop =>
    -- the three tokens in front are those of a statement, and the fourth one ends the body or lists
    -- arguments
    rcases hopens.exists_body p.tokens.last_kind with ⟨q, o, ts, hbody, hq, ho, ht⟩
    refine ⟨q, o, _, _, hbody, hq, ho, .bare ht ?_, rfl⟩
    intro t htop
    cases ts with
    | nil => cases htop
    | cons u ts =>
      cases htop
      rw [TokenSeq.toList, hbody] at hm
      cases hm
      exact hstop
  | @listed literal m _ s' hopens hm hcomma list =>
    rcases hopens.exists_body p.tokens.last_kind with ⟨q, o, ts, hbody, hq, ho, ht⟩
    obtain ⟨es, left, hread, -, -⟩ := list.exists_reads
    change Reads p.tokens.last .arguments (p.tokens.body.drop 4) (.ok es) left at hread
    rw [TokenSeq.toList, hbody] at hm
    rw [hbody] at hread
    -- the comma is not the last token, since that is an end of input
    cases ts with
    | nil =>
      cases hm
      rw [p.tokens.last_kind] at hcomma
      cases hcomma
    | cons u ts =>
      cases hm
      exact ⟨q, o, _, _, hbody, hq, ho, .supplied ht hcomma hread, rfl⟩

/-- Where the opening or the body breaks off, the arguments are not complete. -/
theorem not_supplied_of_opening {rest : List Token} {e : GrammarError}
    (before : Expects p.tokens.last [.printf, .lparen] p.tokens.body (some e) rest) (j : ℕ) :
    ¬ p.Supplied as j := by
  intro hsupplied
  cases hsupplied with
  | bare hopens => exact before.not_opens p.tokens.last_kind hopens
  | listed hopens => exact before.not_opens p.tokens.last_kind hopens

theorem not_supplied_of_body {e : GrammarError}
    (before : Expects p.tokens.last [.printf, .lparen] p.tokens.body none mid)
    (body : BodyReads p.tokens.last mid a) (he : a.error? = some e) (j : ℕ) :
    ¬ p.Supplied as j := by
  intro hsupplied
  obtain ⟨q, o, mid', a', hbody, -, -, hreads, hnone⟩ := hsupplied.exists_bodyReads
  rcases before.exists_opening with ⟨q', o', hopening, -, -⟩
  rw [hbody] at hopening
  cases hopening
  -- the body is read in one way only
  have hsame := (body.body_eq p.tokens.last_kind).symm.trans (hreads.body_eq p.tokens.last_kind)
  rw [hsame, hnone] at he
  cases he

/-- A closing token that is missing is what the judgement reports. -/
theorem unclosed_of_attempt {d : Draft} {left rest us : List Token} {k : Kind} {others : List Kind}
    {found : Token} (hattempt : p.tokens.attempt = ⟨d, some ⟨.kind k, found⟩, rest⟩)
    (hleft : left <:+ p.tokens.body) (hsplit : left = us ++ rest)
    (hkinds : us.map Token.kind ++ k :: others = [.rparen, .semicolon, .endOfInput])
    (hfound : rest.headD p.tokens.last = found) (hne : found.kind ≠ k) :
    p.Unclosed (p.tokens.body.length - left.length) us k found := by
  subst hsplit hfound
  -- the judgement stands where the attempt broke off, behind the tokens that are as they should be
  rcases hleft with ⟨before, hbefore⟩
  have hlength : p.tokens.body.length - (us ++ rest).length = before.length := by
    rw [← hbefore, List.length_append, Nat.add_sub_cancel]
  have hindex : p.judge.2.index = (before ++ us).length := by
    apply p.index_judge
    rw [hattempt, List.append_assoc]
    exact hbefore
  rw [hlength]
  refine ⟨?_, ⟨others, hkinds⟩, hne, by rw [hindex, List.length_append], ?_⟩
  · rw [TokenSeq.toList, ← hbefore, List.append_assoc, List.drop_left, List.append_assoc]
    cases rest with
    | nil => exact ⟨[], rfl⟩
    | cons t rest => exact ⟨rest ++ [p.tokens.last], rfl⟩
  · simp [judge, Attempt.outcome, hattempt]

/-- What is left behind a body is left of all tokens. -/
theorem suffix_body (before : Expects p.tokens.last [.printf, .lparen] p.tokens.body none mid)
    (body : BodyReads p.tokens.last mid a) : a.rest <:+ p.tokens.body :=
  body.suffix.trans before.suffix

/-- A body that is read without error supplies the arguments. -/
theorem supplied_of_reads (before : Expects p.tokens.last [.printf, .lparen] p.tokens.body none mid)
    (body : BodyReads p.tokens.last mid a) (hnone : a.error? = none) :
    p.Supplied (a.draft.typedArguments p.propagate []) (p.tokens.body.length - a.rest.length) := by
  rcases before.exists_opening with ⟨q, o, hbody, hq, ho⟩
  exact supplied_of_bodyReads hbody hq ho body hnone

end

/-- A judgement that finds a fault of the grammar has the directives of the literal if that is in
its place, and no directives otherwise. It has all arguments of the outer call if they are complete,
and then the fault is that the call is not closed behind them. Otherwise it has no arguments: none of
a list that breaks off, and none of a call in such a list. -/
theorem judge_allOrNothing (p : Session) (h : p.judge.1.kind? = some .grammar) :
    ((∀ literal, Opens p.tokens.toList literal →
        p.judge.1.specifiers = Specifier.extract literal.text) ∧
      ((∀ literal, ¬ Opens p.tokens.toList literal) → p.judge.1.specifiers = [])) ∧
    ((∃ as j us missing found, p.Supplied as j ∧ p.Unclosed j us missing found ∧
        p.judge.1.arguments = as) ∨
      ((∀ as j, ¬ p.Supplied as j) ∧ p.judge.1.arguments = [])) := by
  refine ⟨⟨fun literal => TokenSeq.specifiers_of_opens, TokenSeq.specifiers_of_not_opens⟩, ?_⟩
  have hlast := p.tokens.last_kind
  have harguments : p.judge.1.arguments = p.tokens.attempt.draft.typedArguments p.propagate [] :=
    Attempt.arguments_outcome p.propagate p.tokens.attempt
  have herror := (Attempt.kind?_eq_grammar_iff p.tokens.attempt p.propagate).mp h
  have hattempts := p.tokens.attempts_attempt
  rw [harguments]
  generalize hattempt : p.tokens.attempt = a at hattempts herror
  -- where the fault is found: before the body, in it, where the call should be closed, or behind
  -- the end
  cases hattempts with
  | opening before =>
    exact .inr ⟨fun as j => not_supplied_of_opening before j, rfl⟩
  | @body_error mid inner e before body he =>
    -- a body with an error has kept no arguments, whatever the error is
    refine .inr ⟨fun as j => not_supplied_of_body before body he j, ?_⟩
    cases body with
    | no_literal => rfl
    | bare => cases he
    | arguments_error => rfl
    | supplied => cases he
  | @closing mid rest inner e before body hnone after =>
    -- the list is complete, and what is missing is among the tokens that close the statement
    obtain ⟨us, k, others, hsplit, hkinds, hfound, rfl⟩ := after.exists_missing_closing hlast
    exact .inl ⟨_, _, us, k, _, supplied_of_reads before body hnone,
      unclosed_of_attempt hattempt (suffix_body before body) hsplit hkinds rfl hfound, rfl⟩
  | @trailing mid rest inner t before body hnone after ht =>
    obtain ⟨us, hsplit, hkinds⟩ := after.exists_append rfl
    have hall : us.map Token.kind ++ .endOfInput :: [] = [.rparen, .semicolon, .endOfInput] := by
      rw [hkinds]
      rfl
    exact .inl ⟨_, _, us, .endOfInput, t, supplied_of_reads before body hnone,
      unclosed_of_attempt hattempt (suffix_body before body) hsplit hall rfl ht, rfl⟩
  | done => exact absurd rfl herror

/-- The tokens of `printf("%d", f(1), 2); 3`. -/
def numberBehind : TokenSeq where
  body := [⟨.printf, "printf", ⟨.ofIndex 1 0, .ofIndex 1 6⟩⟩,
    ⟨.lparen, "(", ⟨.ofIndex 1 6, .ofIndex 1 7⟩⟩,
    ⟨.literal, "\"%d\"", ⟨.ofIndex 1 7, .ofIndex 1 11⟩⟩,
    ⟨.comma, ",", ⟨.ofIndex 1 11, .ofIndex 1 12⟩⟩,
    ⟨.identifier, "f", ⟨.ofIndex 1 13, .ofIndex 1 14⟩⟩,
    ⟨.lparen, "(", ⟨.ofIndex 1 14, .ofIndex 1 15⟩⟩,
    ⟨.number, "1", ⟨.ofIndex 1 15, .ofIndex 1 16⟩⟩,
    ⟨.rparen, ")", ⟨.ofIndex 1 16, .ofIndex 1 17⟩⟩,
    ⟨.comma, ",", ⟨.ofIndex 1 17, .ofIndex 1 18⟩⟩,
    ⟨.number, "2", ⟨.ofIndex 1 19, .ofIndex 1 20⟩⟩,
    ⟨.rparen, ")", ⟨.ofIndex 1 20, .ofIndex 1 21⟩⟩,
    ⟨.semicolon, ";", ⟨.ofIndex 1 21, .ofIndex 1 22⟩⟩,
    ⟨.number, "3", ⟨.ofIndex 1 23, .ofIndex 1 24⟩⟩]
  last := .ended 1 24
  last_kind := rfl

/-- The number behind the statement is where it fails, so both arguments are kept, the call without
the argument in it. -/
theorem judge_allOrNothing_numberBehind :
    (start false numberBehind).judge.1.kind? = some .grammar ∧
      (start false numberBehind).judge.1.specifiers.map Specifier.text = ["%d"] ∧
      ∃ as j us missing found, (start false numberBehind).Supplied as j ∧
        (start false numberBehind).Unclosed j us missing found ∧
        as.map Argument.type = [.unknown, .integer] := by
  have hkind : (start false numberBehind).judge.1.kind? = some .grammar := by decide +kernel
  have htypes : (start false numberBehind).judge.1.arguments.map Argument.type =
      [.unknown, .integer] := by
    decide +kernel
  have hopens : Opens numberBehind.toList ⟨.literal, "\"%d\"", ⟨.ofIndex 1 7, .ofIndex 1 11⟩⟩ :=
    ⟨_, _, _, rfl, rfl, rfl, rfl⟩
  obtain ⟨⟨hspecifiers, -⟩, harguments⟩ := judge_allOrNothing (start false numberBehind) hkind
  refine ⟨hkind, ?_, ?_⟩
  · rw [hspecifiers _ hopens]
    decide
  · rcases harguments with ⟨as, j, us, missing, found, hsupplied, hunclosed, has⟩ | ⟨-, hnone⟩
    · exact ⟨as, j, us, missing, found, hsupplied, hunclosed, has ▸ htypes⟩
    · rw [hnone] at htypes
      cases htypes

end Session

end PrintfLint
