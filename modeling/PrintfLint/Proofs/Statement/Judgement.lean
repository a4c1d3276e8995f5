import PrintfLint.Proofs.Statement.Verdict
import PrintfLint.Session

/-!
# PrintfLint.Proofs.Statement.Judgement — where a judgement finds fault

* `Attempt.kind?_eq_grammar_iff` — a problem of the grammar is an error of the readers;
* `Session.judge_fault` — such a judgement stops the session before the token that it reports.
-/

namespace PrintfLint

theorem Attempt.kind?_eq_grammar_iff (a : Attempt) (propagate : Bool) :
    (a.outcome propagate).kind? = some .grammar ↔ a.error? ≠ none := by
  cases herror : a.error? with
  | some e => simp [Attempt.outcome, herror, Outcome.kind?, GrammarError.problem, Problem.kind]
  | none =>
    suffices hnot : (a.outcome propagate).kind? ≠ some .grammar by simpa using hnot
    intro hkind
    rw [Attempt.outcome, herror] at hkind
    rcases Option.map_eq_some_iff.mp hkind with ⟨p, hp, hgrammar⟩
    exact argumentProblem?_kind hp hgrammar

/-- After a judgement the session stands before what was left. -/
theorem Session.index_judge (p : Session) {before : List Token}
    (h : before ++ p.tokens.attempt.rest = p.tokens.body) : p.judge.2.index = before.length := by
  have hindex : p.judge.2.index = p.tokens.body.length - p.tokens.attempt.rest.length := by
    simp [judge, adopt, moveTo, start, rest]
  rw [hindex, ← h, List.length_append, Nat.add_sub_cancel]

/-- A judgement that finds a problem of the grammar divides the tokens. It has passed over those
before the session's place, and reports the one at it. -/
theorem Session.judge_fault (p : Session) (h : p.judge.1.kind? = some .grammar) :
    ∃ us e, p.tokens.body = us ++ p.tokens.attempt.rest ∧ p.judge.2.index = us.length ∧
      p.tokens.attempt.error? = some e ∧ p.judge.1.problem? = some e.problem ∧
      p.tokens.toList[p.judge.2.index]? = some e.found ∧
      p.tokens.toList.take p.judge.2.index = us := by
  have hattempts := p.tokens.attempts_attempt
  have herror := (Attempt.kind?_eq_grammar_iff p.tokens.attempt p.propagate).mp h
  rcases Option.ne_none_iff_exists'.mp herror with ⟨e, he⟩
  rcases hattempts.suffix with ⟨us, hus⟩
  have hindex := p.index_judge hus
  -- the end of input counts as a token too, since a fault may be found there
  have htokens : p.tokens.toList = us ++ (p.tokens.attempt.rest ++ [p.tokens.last]) := by
    rw [TokenSeq.toList, ← hus, List.append_assoc]
  refine ⟨us, e, hus.symm, hindex, he, ?_, ?_, ?_⟩
  · simp [judge, Attempt.outcome, he]
  · rw [hattempts.found_eq he, hindex, htokens, List.getElem?_append_right (Nat.le_refl _),
      Nat.sub_self]
    cases p.tokens.attempt.rest <;> rfl
  · rw [hindex, htokens, List.take_left]

end PrintfLint
