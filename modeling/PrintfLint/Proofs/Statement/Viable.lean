import PrintfLint.Proofs.Statement.Judgement
import PrintfLint.Proofs.Statement.Lookahead

/-!
# PrintfLint.Proofs.Statement.Viable — errors come as early as they can

* `Complete`, `Viable`, `Admits` — token strings that are statements or can become statements, and
  the tokens that can come next;
* `LeadsTo` — what is expected where an error was found leads on;
* `Reads.leadsTo`, `Attempts.admits` — what the readers expect can come next;
* `Attempts.not_admits` — what they find instead cannot;
* `Session.judge_earliest` — both for a judgement.

That an expected token can come next is shown by a completion, which is put together along the
rules: each reader that is broken off leaves to the ones around it what they need to go on. That the
token found cannot come next follows from the single token of lookahead: with any other tokens
behind it the readers would stop at the same place, while a statement is read to its end.
-/

namespace PrintfLint

/-! ## Continuations -/

/-- The tokens are a statement, if the end of input comes next. -/
def Complete (us : List Token) : Prop :=
  ∀ fin : Token, fin.kind = .endOfInput → ∃ literal es, IsStatement (us ++ [fin]) literal es

/-- The tokens are a statement with some more behind them. -/
def Viable (us : List Token) : Prop :=
  ∃ vs, Complete (us ++ vs)

/-- The token can come next. The end of input can where a statement is complete, and any other token
where there is a way on from it. -/
def Admits (us : List Token) (t : Token) : Prop :=
  if t.kind = .endOfInput then Complete us else Viable (us ++ [t])

/-- What can stand between the parentheses of a statement. -/
inductive IsBody : List Token → Prop where
  | bare {t : Token} (ht : t.kind = .literal) : IsBody [t]
  | supplied {t m : Token} {us : List Token} {es : List Expr} (ht : t.kind = .literal)
      (hm : m.kind = .comma) (inner : Phrase .arguments us es) : IsBody (t :: m :: us)

/-- A body with the tokens of a statement around it. -/
theorem IsBody.complete {os bs cs : List Token} (h : IsBody bs)
    (hos : os.map Token.kind = [.printf, .lparen])
    (hcs : cs.map Token.kind = [.rparen, .semicolon]) : Complete (os ++ (bs ++ cs)) := by
  rcases exists_pair hos with ⟨p, o, rfl, hp, ho⟩
  rcases exists_pair hcs with ⟨c, s, rfl, hc, hs⟩
  intro fin hfin
  cases h with
  | bare ht => exact ⟨_, _, .bare hp ho ht hc hs hfin⟩
  | @supplied t m us es ht hm inner =>
    refine ⟨t, es, ?_⟩
    simpa using IsStatement.supplied hp ho ht hm inner hc hs hfin

namespace Kind

/-- How a token of the kind might be written. -/
def spelling : Kind → String
  | printf => "printf"
  | lparen => "("
  | rparen => ")"
  | semicolon => ";"
  | literal => "\"\""
  | comma => ","
  | identifier => "x"
  | number => "0"
  | operator => "+"
  | directive => "%"
  | function => "f"
  | endOfInput => ""

/-- A token of the kind. -/
def sample (k : Kind) : Token :=
  ⟨k, k.spelling, ⟨.ofIndex 1 0, .ofIndex 1 k.spelling.length⟩⟩

theorem map_kind_sample (ks : List Kind) : (ks.map sample).map Token.kind = ks := by
  have hkind : Token.kind ∘ sample = id := rfl
  rw [List.map_map, hkind, List.map_id]

/-- The names of kinds, as a message lists them. -/
def enumerate : List Kind → String
  | [] => ""
  | [k] => k.name
  | [k, l] => k.name ++ " or " ++ l.name
  | k :: ks => k.name ++ ", " ++ enumerate ks

end Kind

/-- A message names the kinds that are expected. -/
theorem Expected.describe_eq (x : Expected) : x.describe = Kind.enumerate x.kinds := by
  cases x with
  | kind k => rfl
  | operand => decide

theorem Expected.kinds_ne_nil (x : Expected) : x.kinds ≠ [] := by
  cases x <;> simp [kinds]

/-! ## What is expected leads on -/

/-- The tokens before the rest can go on with every token that is expected, and further on to what
`q` holds of. -/
def LeadsTo (q : List Token → Prop) (e : GrammarError) (ts rest : List Token) : Prop :=
  ∃ us, ts = us ++ rest ∧
    ∀ t : Token, t.kind ∈ e.expected.kinds → ∃ vs, q (us ++ t :: vs)

namespace LeadsTo

variable {q q' : List Token → Prop} {e : GrammarError} {ts rest : List Token}

/-- The error is found at the first token. -/
theorem here (h : ∀ t : Token, t.kind ∈ e.expected.kinds → ∃ vs, q (t :: vs)) :
    LeadsTo q e ts ts :=
  ⟨[], rfl, h⟩

/-- A token of one kind is missing. -/
theorem missing (k : Kind) (found : Token) (rest : List Token) :
    LeadsTo (fun us => ∃ c : Token, c.kind = k ∧ us = [c]) ⟨.kind k, found⟩ rest rest := by
  apply here
  intro c hc
  exact ⟨[], c, List.mem_singleton.mp hc, rfl⟩

/-- Something has been read before, and something has to be read behind. -/
theorem wrap (h : LeadsTo q e ts rest) (before behind : List Token)
    (hq : ∀ us, q us → q' (before ++ (us ++ behind))) : LeadsTo q' e (before ++ ts) rest := by
  rcases h with ⟨us, rfl, hnext⟩
  refine ⟨before ++ us, by rw [List.append_assoc], ?_⟩
  intro t ht
  rcases hnext t ht with ⟨vs, hvs⟩
  refine ⟨vs ++ behind, ?_⟩
  have htokens : before ++ us ++ t :: (vs ++ behind) = before ++ (us ++ t :: vs ++ behind) := by
    simp
  rw [htokens]
  exact hq _ hvs

theorem after (h : LeadsTo q e ts rest) (before : List Token)
    (hq : ∀ us, q us → q' (before ++ us)) : LeadsTo q' e (before ++ ts) rest := by
  apply h.wrap before []
  intro us hus
  rw [List.append_nil]
  exact hq us hus

theorem imp (h : LeadsTo q e ts rest) (hq : ∀ us, q us → q' us) : LeadsTo q' e ts rest :=
  h.after [] hq

end LeadsTo

variable {fin : Token}

/-- Where an error is found, the tokens that are expected lead on to a phrase. -/
theorem Reads.leadsTo {task : Task} {ts rest : List Token} {r : Except GrammarError (List Expr)}
    (h : Reads fin task ts r rest) {e : GrammarError} (hr : r = .error e)
    (hsigned : ∀ t ∈ ts, t.Signed) :
    LeadsTo (fun us => ∃ es, task.Phrased us es) e ts rest := by
  -- the readers under way pass the error on, and each adds what it needs to come to its own end
  induction h with
  | chain_error _ ih =>
    apply (ih hr hsigned).imp
    rintro us ⟨es, hus⟩
    rcases hus.eq_singleton nofun with ⟨a, rfl⟩
    exact ⟨_, .single hus⟩
  | chain_from left _ _ ihmore =>
    obtain ⟨us, rfl, hleft⟩ := left.phrased rfl hsigned
    apply (ihmore hr fun t ht => hsigned t (List.mem_append_right us ht)).after us
    rintro vs ⟨es, hvs⟩
    exact ⟨es, hvs us (.single hleft)⟩
  | chain_end => cases hr
  | @join_error l a t ts rest e hjoin _ ih =>
    rcases List.forall_mem_cons.mp hsigned with ⟨ht, hsigned⟩
    apply (ih hr hsigned).after [t]
    rintro us ⟨es, hus⟩
    rcases hus.eq_singleton nofun with ⟨b, rfl⟩
    exact ⟨_, fun ps hps => .join hps (ht.isSign hjoin) hus⟩
  | @join_from l a b t ts mid rest r hjoin right _ _ ihmore =>
    rcases List.forall_mem_cons.mp hsigned with ⟨ht, hsigned⟩
    obtain ⟨us, rfl, hright⟩ := right.phrased rfl hsigned
    apply (ihmore hr fun t ht => hsigned t (List.mem_append_right us ht)).after (t :: us)
    rintro vs ⟨es, hvs⟩
    refine ⟨es, ?_⟩
    intro ps hps
    have hjoined := hvs (ps ++ t :: us) (.join hps (ht.isSign hjoin) hright)
    simpa using hjoined
  | term _ ih =>
    apply (ih hr hsigned).imp
    rintro us ⟨es, hus⟩
    exact ⟨es, .term hus⟩
  | factor _ ih =>
    apply (ih hr hsigned).imp
    rintro us ⟨es, hus⟩
    exact ⟨es, .factor hus⟩
  | no_factor =>
    cases hr
    apply LeadsTo.here
    intro t ht
    rcases (by simpa [Expected.kinds] using ht) with ht | ht | ht
    · exact ⟨[], _, .name ht⟩
    · exact ⟨[], _, .number ht⟩
    · -- a parenthesis needs an expression inside and its counterpart
      have hinner : Phrase (.chain .sum) [Kind.number.sample] _ :=
        .single (.term (.single (.factor (.number rfl))))
      exact ⟨[Kind.number.sample, Kind.rparen.sample], _, .group ht hinner rfl⟩
  | number => cases hr
  | name => cases hr
  | call_empty => cases hr
  | @call_error t o ts rest e ht ho _ _ ih =>
    apply (ih hr fun u hu => hsigned u (by simp [hu])).wrap [t, o] [Kind.rparen.sample]
    rintro us ⟨es, hus⟩
    exact ⟨_, .call ht ho hus rfl⟩
  | call => cases hr
  | @call_open t o ts rest es ht ho _ inner _ _ =>
    cases hr
    -- the arguments are complete, and nothing but the parenthesis is missing
    obtain ⟨us, rfl, hus⟩ := inner.phrased rfl fun u hu => hsigned u (by simp [hu])
    apply (LeadsTo.missing .rparen _ rest).after (t :: o :: us)
    rintro _ ⟨c, hc, rfl⟩
    exact ⟨_, .call ht ho hus hc⟩
  | @group_error o ts rest e ho _ ih =>
    apply (ih hr fun u hu => hsigned u (by simp [hu])).wrap [o] [Kind.rparen.sample]
    rintro us ⟨es, hus⟩
    rcases hus.eq_singleton nofun with ⟨a, rfl⟩
    exact ⟨_, .group ho hus rfl⟩
  | group => cases hr
  | @group_open o ts rest a ho inner _ _ =>
    cases hr
    obtain ⟨us, rfl, hus⟩ := inner.phrased rfl fun u hu => hsigned u (by simp [hu])
    apply (LeadsTo.missing .rparen _ rest).after (o :: us)
    rintro _ ⟨c, hc, rfl⟩
    exact ⟨_, .group ho hus hc⟩
  | arguments_error _ ih =>
    apply (ih hr hsigned).imp
    rintro us ⟨es, hus⟩
    rcases hus.eq_singleton nofun with ⟨a, rfl⟩
    exact ⟨_, .last hus⟩
  | @arguments_from ts mid rest a r first _ _ ihmore =>
    obtain ⟨us, rfl, hfirst⟩ := first.phrased rfl hsigned
    apply (ihmore (map_eq_error hr) fun u hu => hsigned u (List.mem_append_right us hu)).after us
    rintro vs ⟨es, hvs⟩
    exact ⟨a :: es, hvs us a hfirst⟩
  | arguments_end => cases hr
  | @comma_error t ts rest e ht _ ih =>
    apply (ih hr fun u hu => hsigned u (List.mem_cons_of_mem t hu)).after [t]
    rintro us ⟨es, hus⟩
    rcases hus.eq_singleton nofun with ⟨b, rfl⟩
    exact ⟨_, fun ps a hps => .comma hps ht (.last hus)⟩
  | @comma_from t ts mid rest a r ht next _ _ ihmore =>
    obtain ⟨us, rfl, hnext⟩ :=
      next.phrased rfl fun u hu => hsigned u (List.mem_cons_of_mem t hu)
    have hmid : ∀ u ∈ mid, u.Signed := fun u hu => hsigned u (by simp [hu])
    apply (ihmore (map_eq_error hr) hmid).after (t :: us)
    rintro vs ⟨es, hvs⟩
    refine ⟨a :: es, ?_⟩
    intro ps b hps
    have hothers := Phrase.comma hps ht (hvs us a hnext)
    simpa using hothers

/-- Where a token is missing, those of the missing kinds can be put in. -/
theorem Expects.leadsTo {ks : List Kind} {ts rest : List Token} {r : Option GrammarError}
    (h : Expects fin ks ts r rest) {e : GrammarError} (hr : r = some e) :
    LeadsTo (fun us => us.map Token.kind = ks) e ts rest := by
  induction h with
  | nil => cases hr
  | @cons k ks t ts rest r ht _ ih =>
    apply (ih hr).after [t]
    intro us hus
    rw [List.singleton_append, List.map_cons, ht, hus]
  -- the sample of the missing kind, and then those of the kinds behind it
  | @missing k ks ts _ =>
    cases hr
    apply (LeadsTo.missing k _ ts).wrap [] (ks.map Kind.sample)
    rintro _ ⟨c, rfl, rfl⟩
    rw [List.nil_append, List.singleton_append, List.map_cons, Kind.map_kind_sample]

/-- A body that breaks off can be completed from what is expected. -/
theorem BodyReads.leadsTo {ts : List Token} {a : Attempt} (h : BodyReads fin ts a)
    {e : GrammarError} (he : a.error? = some e) (hsigned : ∀ t ∈ ts, t.Signed) :
    LeadsTo IsBody e ts a.rest := by
  -- either the literal is missing, or the list of arguments breaks off
  cases h with
  | no_literal =>
    cases he
    apply (LeadsTo.missing .literal _ ts).imp
    rintro _ ⟨t, ht, rfl⟩
    exact .bare ht
  | bare => cases he
  | @arguments_error t m ts rest _ ht hm inner =>
    cases he
    apply (inner.leadsTo rfl fun u hu => hsigned u (by simp [hu])).after [t, m]
    rintro us ⟨es, hus⟩
    exact .supplied ht hm hus
  | supplied => cases he

/-- What is read of a body without error is a body. -/
theorem BodyReads.isBody {ts : List Token} {a : Attempt} (h : BodyReads fin ts a)
    (hnone : a.error? = none) (hsigned : ∀ t ∈ ts, t.Signed) :
    ∃ bs, ts = bs ++ a.rest ∧ IsBody bs := by
  cases h with
  | no_literal => cases hnone
  | @bare t ts ht _ => exact ⟨[t], rfl, .bare ht⟩
  | arguments_error => cases hnone
  | @supplied t m ts rest es ht hm inner =>
    obtain ⟨us, rfl, hus⟩ := inner.phrased rfl fun u hu => hsigned u (by simp [hu])
    exact ⟨t :: m :: us, rfl, .supplied ht hm hus⟩

/-! ## Errors come as early as they can -/

/-- The end of input does not come before a statement is complete. -/
theorem Complete.kind_ne {us : List Token} (h : Complete us) :
    ∀ t ∈ us, t.kind ≠ .endOfInput := by
  -- another end of input behind the tokens would make a statement, which has only one, at its end
  rcases h Kind.endOfInput.sample rfl with ⟨literal, es, hstatement⟩
  generalize hall : us ++ [Kind.endOfInput.sample] = all at hstatement
  cases hstatement with
  | @bare p o _ c s e hp ho ht hc hs _ =>
    have hsplit : us ++ [Kind.endOfInput.sample] = [p, o, literal, c, s] ++ [e] := hall
    rw [(List.append_inj' hsplit rfl).1]
    simp [hp, ho, ht, hc, hs]
  | @supplied p o _ m c s e vs _ hp ho ht hm inner hc hs _ =>
    have hsplit : us ++ [Kind.endOfInput.sample] =
        [p, o, literal, m] ++ (vs ++ [c, s]) ++ [e] := by
      rw [hall]
      simp
    rw [(List.append_inj' hsplit rfl).1, List.forall_mem_append, List.forall_mem_append]
    exact ⟨by simp [hp, ho, ht, hm], inner.kind_ne, by simp [hc, hs]⟩

theorem Admits.viable {us : List Token} {t : Token} (h : Admits us t) : Viable us := by
  unfold Admits at h
  split at h
  · exact ⟨[], by rwa [List.append_nil]⟩
  · rcases h with ⟨vs, hvs⟩
    exact ⟨t :: vs, by simpa using hvs⟩

theorem LeadsTo.admits {e : GrammarError} {ts rest : List Token} (h : LeadsTo Complete e ts rest) :
    ∃ us, ts = us ++ rest ∧ ∀ t : Token, t.kind ∈ e.expected.kinds → Admits us t := by
  rcases h with ⟨us, hus, hnext⟩
  refine ⟨us, hus, ?_⟩
  intro t ht
  rcases hnext t ht with ⟨vs, hvs⟩
  rw [Admits, if_neg (hvs.kind_ne t (by simp))]
  exact ⟨vs, by simpa using hvs⟩

/-- What the readers expect can come next. -/
theorem Attempts.admits {ts : List Token} {a : Attempt} (h : Attempts fin ts a)
    {e : GrammarError} (he : a.error? = some e) (hsigned : ∀ t ∈ ts, t.Signed) :
    ∃ us, ts = us ++ a.rest ∧ ∀ t : Token, t.kind ∈ e.expected.kinds → Admits us t := by
  cases h with
  | opening before =>
    cases he
    apply LeadsTo.admits
    apply (before.leadsTo rfl).wrap []
      ([Kind.literal.sample] ++ [Kind.rparen.sample, Kind.semicolon.sample])
    intro os hos
    exact (IsBody.bare rfl).complete hos rfl
  | body_error before body =>
    rcases before.exists_append rfl with ⟨os, rfl, hos⟩
    apply LeadsTo.admits
    have hbody := body.leadsTo he fun t ht => hsigned t (List.mem_append_right os ht)
    apply hbody.wrap os [Kind.rparen.sample, Kind.semicolon.sample]
    intro bs hbs
    exact hbs.complete hos rfl
  | closing before body hnone after =>
    cases he
    rcases before.exists_append rfl with ⟨os, rfl, hos⟩
    obtain ⟨bs, rfl, hbs⟩ :=
      body.isBody hnone fun t ht => hsigned t (List.mem_append_right os ht)
    apply LeadsTo.admits
    rw [← List.append_assoc]
    apply (after.leadsTo rfl).after (os ++ bs)
    intro cs hcs
    rw [List.append_assoc]
    exact hbs.complete hos hcs
  | trailing before body hnone after =>
    cases he
    rcases before.exists_append rfl with ⟨os, rfl, hos⟩
    obtain ⟨bs, rfl, hbs⟩ :=
      body.isBody hnone fun t ht => hsigned t (List.mem_append_right os ht)
    -- a whole statement has been read, so the end of input can come
    rcases after.exists_append rfl with ⟨cs, hrest, hcs⟩
    refine ⟨os ++ (bs ++ cs), by simp [hrest], ?_⟩
    intro t ht
    rw [Admits, if_pos (List.mem_singleton.mp ht)]
    exact hbs.complete hos hcs
  | done => cases he

/-- What the readers find instead cannot come next. -/
theorem Attempts.not_admits {us : List Token} {a : Attempt} (h : Attempts fin (us ++ a.rest) a)
    {e : GrammarError} (he : a.error? = some e) (hfin : fin.kind = .endOfInput)
    (hrest : ∀ t ∈ a.rest, t.kind ≠ .endOfInput) : ¬ Admits us e.found := by
  -- no statement goes on as the tokens do, since the readers would stop at the same place
  have hnone : ∀ vs, vs.head? = a.rest.head? → ¬ Complete (us ++ vs) := by
    intro vs hhead hcomplete
    rcases h.lookahead with ⟨us', hus, hahead⟩
    obtain rfl : us' = us := List.append_cancel_right hus.symm
    rcases hcomplete fin hfin with ⟨literal, es, hstatement⟩
    have hread := (hahead vs hhead).statement_eq hfin
    rw [attempt_of_isStatement hfin hstatement] at hread
    have herror : none = a.error? := congrArg Attempt.error? hread
    rw [he] at herror
    cases herror
  intro hadmits
  rw [h.found_eq he] at hadmits
  generalize a.rest = rest at hadmits hrest hnone
  cases rest with
  | nil =>
    rw [List.headD_nil, Admits, if_pos hfin] at hadmits
    exact hnone [] rfl (by rwa [List.append_nil])
  | cons t rest =>
    rw [List.headD_cons, Admits, if_neg (hrest t List.mem_cons_self)] at hadmits
    rcases hadmits with ⟨vs, hvs⟩
    exact hnone (t :: vs) rfl (by simpa using hvs)

/-- Errors of the grammar come as early as they can, and name what could have come instead. The
tokens before the one that is reported have a way on to a statement, and with this one they have
none. Every kind that the message names after `expected` can come next. -/
theorem Session.judge_earliest (p : Session) (hbody : ∀ t ∈ p.tokens.body, t.Regular)
    (h : p.judge.1.kind? = some .grammar) :
    ∃ (t : Token) (expected : Expected),
      p.tokens.toList[p.judge.2.index]? = some t ∧
      p.judge.1.diagnostic? = some ⟨.grammar,
        "expected " ++ Kind.enumerate expected.kinds ++ ", found " ++ t.kind.name,
        some t.span, expected.hint?⟩ ∧
      Viable (p.tokens.toList.take p.judge.2.index) ∧
      ¬ Admits (p.tokens.toList.take p.judge.2.index) t ∧
      ∀ k ∈ expected.kinds, ∀ u : Token, u.kind = k →
        Admits (p.tokens.toList.take p.judge.2.index) u := by
  rcases p.judge_fault h with ⟨us, e, hus, _, he, hproblem, hfound, htake⟩
  have hattempts : Attempts p.tokens.last p.tokens.body p.tokens.attempt :=
    Attempt.attempts_statement p.tokens.last_kind p.tokens.body
  have hsigned : ∀ t ∈ p.tokens.body, t.Signed := fun t ht => (hbody t ht).signed
  -- the attempt says what could come next, and that gives both the way on and the kinds
  rcases hattempts.admits he hsigned with ⟨us', hus', hadmits⟩
  obtain rfl : us' = us := List.append_cancel_right (hus'.symm.trans hus)
  -- the token itself is no way on, or the attempt would not have stopped at it
  have hnot : ¬ Admits us' e.found := by
    have hrest : ∀ t ∈ p.tokens.attempt.rest, t.kind ≠ .endOfInput :=
      fun t ht => (hbody t (hus ▸ List.mem_append_right us' ht)).kind_ne
    rw [hus] at hattempts
    exact hattempts.not_admits he p.tokens.last_kind hrest
  rw [htake]
  refine ⟨e.found, e.expected, hfound, ?_, ?_, hnot, ?_⟩
  · rw [Outcome.diagnostic?, hproblem, ← Expected.describe_eq]
    rfl
  · rcases List.exists_mem_of_ne_nil _ e.expected.kinds_ne_nil with ⟨k, hk⟩
    exact (hadmits k.sample hk).viable
  · rintro k hk u rfl
    exact hadmits u hk

/-- The tokens of `printf("%d",);`, where an argument is missing. -/
def missingArgument : TokenSeq where
  body := [⟨.printf, "printf", ⟨.ofIndex 1 0, .ofIndex 1 6⟩⟩,
    ⟨.lparen, "(", ⟨.ofIndex 1 6, .ofIndex 1 7⟩⟩,
    ⟨.literal, "\"%d\"", ⟨.ofIndex 1 7, .ofIndex 1 11⟩⟩,
    ⟨.comma, ",", ⟨.ofIndex 1 11, .ofIndex 1 12⟩⟩,
    ⟨.rparen, ")", ⟨.ofIndex 1 12, .ofIndex 1 13⟩⟩,
    ⟨.semicolon, ";", ⟨.ofIndex 1 13, .ofIndex 1 14⟩⟩]
  last := ⟨.endOfInput, "", ⟨.ofIndex 1 14, .ofIndex 1 14⟩⟩
  last_kind := rfl

/-- The error is found at the parenthesis, where a number could have stood. -/
theorem Session.judge_missingArgument :
    (start true missingArgument).judge.1.reason? =
        some "expected Identifier, Number or LParen, found RParen" ∧
      Viable (missingArgument.toList.take 4) ∧
      ¬ Admits (missingArgument.toList.take 4) ⟨.rparen, ")", ⟨.ofIndex 1 12, .ofIndex 1 13⟩⟩ ∧
      Admits (missingArgument.toList.take 4) Kind.number.sample := by
  have hbody : ∀ t ∈ missingArgument.body, t.Regular := by
    intro t ht
    have hkind : t.kind ≠ .endOfInput ∧ t.kind ≠ .operator := by
      revert t
      decide
    exact ⟨hkind.1, fun hop => absurd hop hkind.2⟩
  have hgrammar : (start true missingArgument).judge.1.kind? = some .grammar := by decide +kernel
  have hindex : (start true missingArgument).judge.2.index = 4 := by decide +kernel
  have hreason : (start true missingArgument).judge.1.reason? =
      some "expected Identifier, Number or LParen, found RParen" := by decide +kernel
  rcases (start true missingArgument).judge_earliest hbody hgrammar with
    ⟨t, expected, hfound, hdiagnostic, hviable, hnot, hadmits⟩
  rw [hindex] at hfound hviable hnot hadmits
  cases hfound
  -- the advice tells that the start of a factor is expected
  have hhint : (start true missingArgument).judge.1.diagnostic?.bind Diagnostic.hint? =
      Expected.operand.hint? := by decide +kernel
  rw [hdiagnostic] at hhint
  have hnumber : Kind.number ∈ expected.kinds := by
    cases expected with
    | operand => decide
    | kind k =>
      revert hhint
      cases k <;> decide
  exact ⟨hreason, hviable, hnot, hadmits .number hnumber _ rfl⟩

end PrintfLint
