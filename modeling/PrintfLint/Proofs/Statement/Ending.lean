import PrintfLint.Proofs.Statement.Judgement

/-!
# PrintfLint.Proofs.Statement.Ending — tokens behind an end of input

* `Reads.ending`, `Attempts.ending` — what has an end-of-input token at its end is read as it is
  when tokens follow that one;
* `TokenSeq.attempt_ending` — so the tokens behind it have no influence on an attempt;
* `Session.Operation`, `Session.run` — what can be done to a session, and a history of it;
* `Session.tokens_run` — no history changes the tokens;
* `Session.judge_ending` — a judgement depends on the tokens up to an end of input only, whatever
  has been done before.

No reader passes over an end-of-input token. To the readers it is the same whether such a token is
the last one, which stands for all that is behind the end, or one among the others.
-/

namespace PrintfLint

variable {fin fin' : Token} {tail : List Token}

/-! ## Readers -/

section

variable (hfin : fin.kind = .endOfInput)

/-- A condition on the next token that the end of input satisfies. -/
theorem forall_head?_ending {q : Token → Prop} {ts : List Token} (hend : q fin)
    (h : ∀ t ∈ ts.head?, q t) : ∀ t ∈ (ts ++ fin :: tail).head?, q t := by
  intro t ht
  cases ts with
  | nil =>
    cases ht
    exact hend
  | cons u ts => exact h t ht

theorem headD_ending (fin fin' : Token) (tail ts : List Token) :
    (ts ++ fin :: tail).headD fin' = ts.headD fin := by
  cases ts <;> rfl

include hfin

/-- What is read up to an end of input is read alike with other tokens behind it. -/
theorem Reads.ending {task : Task} {ts rest : List Token} {r : Except GrammarError (List Expr)}
    (h : Reads fin task ts r rest) :
    Reads fin' task (ts ++ fin :: tail) r (rest ++ fin :: tail) := by
  -- where the tokens are over, a rule finds an end of input either way
  have hkind : ∀ {k : Kind}, k ≠ .endOfInput → fin.kind ≠ k := by
    intro k hk heq
    exact hk (heq.symm.trans hfin)
  induction h with
  | chain_error _ ih => exact .chain_error ih
  | chain_from _ _ ih ihmore => exact .chain_from ih ihmore
  | chain_end hstop =>
    exact .chain_end (forall_head?_ending (joins_eq_false (hkind (by decide))) hstop)
  | join_error hjoin _ ih => exact .join_error hjoin ih
  | join_from hjoin _ _ ih ihmore => exact .join_from hjoin ih ihmore
  | term _ ih => exact .term ih
  | factor _ ih => exact .factor ih
  | no_factor hfound =>
    rw [← headD_ending fin fin' tail]
    exact .no_factor (forall_head?_ending (by simp [hfin, Expected.kinds]) hfound)
  | number ht => exact .number ht
  | name ht hstop => exact .name ht (forall_head?_ending (hkind (by decide)) hstop)
  | call_empty ht ho hc => exact .call_empty ht ho hc
  | call_error ht ho hargs _ ih =>
    exact .call_error ht ho (forall_head?_ending (hkind (by decide)) hargs) ih
  | call ht ho hargs _ hc ih =>
    exact .call ht ho (forall_head?_ending (hkind (by decide)) hargs) ih hc
  | call_open ht ho hargs _ hc ih =>
    rw [← headD_ending fin fin' tail]
    exact .call_open ht ho (forall_head?_ending (hkind (by decide)) hargs) ih
      (forall_head?_ending (hkind (by decide)) hc)
  | group_error ho _ ih => exact .group_error ho ih
  | group ho _ hc ih => exact .group ho ih hc
  | group_open ho _ hc ih =>
    rw [← headD_ending fin fin' tail]
    exact .group_open ho ih (forall_head?_ending (hkind (by decide)) hc)
  | arguments_error _ ih => exact .arguments_error ih
  | arguments_from _ _ ih ihmore => exact .arguments_from ih ihmore
  | arguments_end hstop => exact .arguments_end (forall_head?_ending (hkind (by decide)) hstop)
  | comma_error ht _ ih => exact .comma_error ht ih
  | comma_from ht _ _ ih ihmore => exact .comma_from ht ih ihmore

theorem Expects.ending {ks : List Kind} {ts rest : List Token} {e : Option GrammarError}
    (h : Expects fin ks ts e rest) (hks : .endOfInput ∉ ks) :
    Expects fin' ks (ts ++ fin :: tail) e (rest ++ fin :: tail) := by
  induction h with
  | nil => exact .nil
  | cons ht _ ih => exact .cons ht (ih (List.ne_and_not_mem_of_not_mem_cons hks).2)
  | @missing k ks ts hne =>
    -- the kind that is due is not that of the end of input, so it is still missing
    have hk : fin.kind ≠ k := by
      rw [hfin]
      exact (List.ne_and_not_mem_of_not_mem_cons hks).1
    rw [← headD_ending fin fin' tail]
    exact .missing (forall_head?_ending hk hne)

theorem BodyReads.ending {ts : List Token} {a : Attempt} (h : BodyReads fin ts a) :
    BodyReads fin' (ts ++ fin :: tail) { a with rest := a.rest ++ fin :: tail } := by
  cases h with
  | no_literal hne =>
    rw [← headD_ending fin fin' tail]
    exact .no_literal (forall_head?_ending (by simp [hfin]) hne)
  | bare ht hstop => exact .bare ht (forall_head?_ending (by simp [hfin]) hstop)
  | arguments_error ht hm inner => exact .arguments_error ht hm (inner.ending hfin)
  | supplied ht hm inner => exact .supplied ht hm (inner.ending hfin)

theorem Attempts.ending {ts : List Token} {a : Attempt} (h : Attempts fin ts a) :
    Attempts fin' (ts ++ fin :: tail) { a with rest := a.rest ++ fin :: tail } := by
  -- every part of the statement is read as before, with the new tokens behind what it leaves
  cases h with
  | opening before => exact .opening (before.ending hfin (by decide))
  | body_error before body he =>
    exact .body_error (before.ending hfin (by decide)) (body.ending hfin) he
  | closing before body hnone after =>
    have hread : Attempts fin' (ts ++ fin :: tail) _ :=
      .closing (before.ending hfin (by decide)) (body.ending hfin) hnone
        (after.ending hfin (by decide))
    exact hread
  | trailing before body hnone after ht =>
    have hread : Attempts fin' (ts ++ fin :: tail) _ :=
      .trailing (before.ending hfin (by decide)) (body.ending hfin) hnone
        (after.ending hfin (by decide)) ht
    exact hread
  | done before body hnone after hend =>
    have hread : Attempts fin' (ts ++ fin :: tail) _ :=
      .done (before.ending hfin (by decide)) (body.ending hfin) hnone
        (after.ending hfin (by decide)) (forall_head?_ending hfin hend)
    exact hread

end

/-! ## Sequences -/

namespace TokenSeq

variable {s : TokenSeq} {ts rest : List Token} {eof : Token}

/-- An attempt at a sequence with an end of input in it comes to what an attempt at the tokens up to
there comes to, and all that is behind them is left. -/
theorem attempt_ending (heof : eof.kind = .endOfInput) (h : s.toList = ts ++ eof :: rest) :
    ∃ tail, s.body = ts ++ tail ∧
      s.attempt =
        { attempt ⟨ts, eof, heof⟩ with rest := (attempt ⟨ts, eof, heof⟩).rest ++ tail } := by
  have hread : Attempts eof ts (attempt ⟨ts, eof, heof⟩) := attempts_attempt ⟨ts, eof, heof⟩
  rcases s with ⟨body, last, hlast⟩
  rcases List.eq_nil_or_concat rest with rfl | ⟨rest, u, rfl⟩
  · -- the end of input is the last token, and nothing is behind it
    obtain ⟨rfl, rfl⟩ : body = ts ∧ last = eof := by
      simpa using List.append_inj' h rfl
    exact ⟨[], by simp, by simp⟩
  · have hsplit : body ++ [last] = (ts ++ eof :: rest) ++ [u] := by
      simpa [toList] using h
    obtain ⟨rfl, rfl⟩ : body = ts ++ eof :: rest ∧ last = u := by
      simpa using List.append_inj' hsplit rfl
    exact ⟨eof :: rest, rfl, (hread.ending heof).statement_eq hlast⟩

end TokenSeq

/-! ## Sessions -/

namespace Session

/-- What can be done to a session: it carries out a command, or is given other directives and
arguments in place of those that it has found. -/
inductive Operation where
  | command (c : Command)
  | overwrite (specifiers : List Specifier) (arguments : List Argument)

/-- The session after an operation, whether that succeeds or fails. -/
def operate (s : Session) : Operation → Session
  | .command c => (s.perform c).2
  | .overwrite specifiers arguments => { s with specifiers, arguments }

/-- The session after one operation and another. -/
def run (s : Session) (ops : List Operation) : Session :=
  ops.foldl operate s

theorem tokens_settle (s : Session) (a : Attempt) : (s.settle a).2.tokens = s.tokens := by
  unfold settle
  split <;> rfl

theorem tokens_report {α : Type} {n : ℕ} (s : Session) (r : Reading α n) (reply : α → Reply) :
    (s.report r reply).2.tokens = s.tokens := by
  unfold report
  split <;> rfl

/-- A command leaves the tokens as they are. -/
theorem tokens_perform (s : Session) (c : Command) : (s.perform c).2.tokens = s.tokens := by
  unfold perform
  -- only the part of a session that a command returns changes, and the tokens are not in it
  cases c with
  | statement => exact tokens_settle s _
  | body => exact tokens_settle s _
  | check =>
    dsimp only
    split <;> rfl
  | arguments => exact tokens_report s _ _
  | expression => exact tokens_report s _ _
  | term => exact tokens_report s _ _
  | factor => exact tokens_report s _ _
  | expect k => exact tokens_report s _ _
  | keepArguments =>
    dsimp only
    split <;> rfl
  | _ => rfl

/-- No history changes the tokens. -/
theorem tokens_run (s : Session) (ops : List Operation) : (s.run ops).tokens = s.tokens := by
  unfold run
  induction ops generalizing s with
  | nil => rfl
  | cons op ops ih =>
    rw [List.foldl_cons, ih]
    cases op with
    | command c => exact tokens_perform s c
    | overwrite => rfl

/-- What a judgement comes to. Nothing of the session counts but its tokens and the way in which
unknown types count. -/
theorem judge_eq (s : Session) : s.judge =
    (s.tokens.attempt.outcome s.propagate,
      { tokens := s.tokens
        propagate := s.propagate
        index := s.tokens.body.length - s.tokens.attempt.rest.length
        specifiers := s.tokens.attempt.draft.specifiers []
        arguments := s.tokens.attempt.draft.typedArguments s.propagate [] }) := by
  simp [judge, adopt, moveTo, start, rest]

/-- A judgement depends on the tokens up to an end of input only, such as the first one, and on the
way in which unknown types count at the time. Whatever has been done to the session, and whatever
has failed, it finds the outcome that a new session with these tokens alone finds, and comes to the
same place with the same directives and arguments. -/
theorem judge_ending {tokens : TokenSeq} {ts rest : List Token} {eof : Token}
    (heof : eof.kind = .endOfInput) (h : tokens.toList = ts ++ eof :: rest) (propagate : Bool)
    (ops : List Operation) :
    ∃ o s', (start ((start propagate tokens).run ops).propagate ⟨ts, eof, heof⟩).perform .judge =
        (.ok (.outcome o), s') ∧
      ((start propagate tokens).run ops).perform .judge =
        (.ok (.outcome o), { s' with tokens }) := by
  have htokens : ((start propagate tokens).run ops).tokens = tokens := tokens_run _ ops
  generalize (start propagate tokens).run ops = s at htokens
  obtain ⟨tail, hbody, hattempt⟩ := TokenSeq.attempt_ending heof h
  -- the place is counted from the front, so it does not see what is behind the end of input
  have hlength : tokens.body.length - tokens.attempt.rest.length =
      ts.length - (TokenSeq.attempt ⟨ts, eof, heof⟩).rest.length := by
    rw [hbody, hattempt, List.length_append, List.length_append]
    omega
  refine ⟨_, _, rfl, ?_⟩
  simp only [perform, judge_eq, htokens, hlength]
  rw [hattempt]
  rfl

/-- The tokens of `printf("");`, and a number behind the end of input. -/
def numberBehindEnd : TokenSeq where
  body := [⟨.printf, "printf", ⟨.ofIndex 1 0, .ofIndex 1 6⟩⟩,
    ⟨.lparen, "(", ⟨.ofIndex 1 6, .ofIndex 1 7⟩⟩,
    ⟨.literal, "\"\"", ⟨.ofIndex 1 7, .ofIndex 1 9⟩⟩,
    ⟨.rparen, ")", ⟨.ofIndex 1 9, .ofIndex 1 10⟩⟩,
    ⟨.semicolon, ";", ⟨.ofIndex 1 10, .ofIndex 1 11⟩⟩,
    ⟨.endOfInput, "", ⟨.ofIndex 1 11, .ofIndex 1 11⟩⟩,
    ⟨.number, "1", ⟨.ofIndex 1 12, .ofIndex 1 13⟩⟩]
  last := .ended 1 13
  last_kind := rfl

/-- The session reads the number as an argument, keeps it, and fails at a parenthesis. Its judgement
knows nothing of that. -/
theorem judge_ending_keptArgument :
    ((start true numberBehindEnd).run [.command (.seek 6), .command .keepArguments,
        .command (.seek 3), .command .factor]).arguments.map Argument.type = [.integer] ∧
      ∃ o s', ((start true numberBehindEnd).run [.command (.seek 6), .command .keepArguments,
          .command (.seek 3), .command .factor]).perform .judge = (.ok (.outcome o), s') ∧
        o.valid = true ∧ o.arguments = [] ∧ s'.index = 5 := by
  have htokens : numberBehindEnd.toList = numberBehindEnd.body.take 5 ++
      ⟨.endOfInput, "", ⟨.ofIndex 1 11, .ofIndex 1 11⟩⟩ :: numberBehindEnd.toList.drop 6 := rfl
  obtain ⟨o, s', hfresh, hread⟩ := judge_ending rfl htokens true
    [.command (.seek 6), .command .keepArguments, .command (.seek 3), .command .factor]
  refine ⟨by decide +kernel, o, _, hread, ?_⟩
  cases hfresh
  decide +kernel

end Session

end PrintfLint
