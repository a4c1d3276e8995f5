import PrintfLint.Proofs.Token.Fault
import PrintfLint.Proofs.Verdict.Argument
import PrintfLint.Proofs.Verdict.Layout
import PrintfLint.Proofs.Verdict.Source

/-!
# PrintfLint.Proofs.Verdict.Places — places inside the line

* `Span.Inside` — a span that lies in a line with a given number and length;
* `TokenSeq.inside_of_ofLine`, `LexicalError.inside_of_ofLine` — a scan makes such spans only;
* `Problem.PointsInto` — a problem with such a span, or without one for want of arguments;
* `Verdict.Located` — a verdict all of whose places lie in its line;
* `Verdict.ofLine_located` — the verdict on a line is one, and the number of the line is a label.

Positions are made by a scan and nowhere else. All others are taken over from tokens, so it is
enough to know of each span whose it is.
-/

namespace PrintfLint

/-! ## Spans -/

/-- The span lies in a line with this number and of this length. Columns are counted from one. -/
structure Span.Inside (number : ℤ) (length : ℕ) (s : Span) : Prop where
  start_line : s.start.line = number
  stop_line : s.stop.line = number
  start_column : s.start.column = s.start.index + 1
  stop_column : s.stop.column = s.stop.index + 1
  nonneg : 0 ≤ s.start.index
  start_le_stop : s.start.index ≤ s.stop.index
  le_length : s.stop.index ≤ length

theorem Span.inside_ofIndex (number : ℤ) {i j length : ℕ} (hij : i ≤ j) (hj : j ≤ length) :
    Inside number length ⟨.ofIndex number i, .ofIndex number j⟩ where
  start_line := rfl
  stop_line := rfl
  start_column := rfl
  stop_column := rfl
  nonneg := Int.natCast_nonneg i
  start_le_stop := Int.ofNat_le.mpr hij
  le_length := Int.ofNat_le.mpr hj

section

variable {strict : Strictness} {line : String} {number : ℤ} {s : TokenSeq}

/-- The tokens of a line lie in it, the end of input included. -/
theorem TokenSeq.inside_of_ofLine (hs : ofLine strict line number = .ok s) :
    ∀ t ∈ s.toList, t.span.Inside number line.length := by
  obtain ⟨htiles, hlast⟩ := tiles_of_ofLine hs
  intro t ht
  rw [← String.length_toList]
  rcases List.mem_append.mp ht with ht | ht
  · obtain ⟨i, j, -, hpiece⟩ := htiles.piece t ht
    rw [hpiece.span_eq]
    exact Span.inside_ofIndex number hpiece.lt.le hpiece.le_length
  · rw [List.mem_singleton.mp ht, hlast]
    exact Span.inside_ofIndex number le_rfl le_rfl

/-- A lexical error points into its line. -/
theorem LexicalError.inside_of_ofLine {e : LexicalError}
    (h : TokenSeq.ofLine strict line number = .error e) : e.span.Inside number line.length := by
  obtain ⟨us, ts, rest, hline, -, hfault⟩ := TokenSeq.exists_fault_of_scan h
  rw [Position.advance_ofIndex_zero] at hfault
  obtain ⟨k, hspan, -, hle, -, -⟩ := hfault.exists_span
  have hlength : us.length + rest.length = line.length := by
    rw [← String.length_toList, hline, List.length_append]
  rw [hspan, Position.advance_ofIndex]
  exact Span.inside_ofIndex number (by omega) (by omega)

end

/-! ## Problems -/

/-- The problem has a span in the line, or it has none, since it is about the number of arguments,
and there are none. -/
inductive Problem.PointsInto (number : ℤ) (length : ℕ) (as : List Argument) (p : Problem) :
    Prop where
  | place {s : Span} (hs : s.Inside number length) (span_eq : p.span? = some s)
      (hcount : p.kind = .countMismatch → as ≠ [])
  | missing (hkind : p.kind = .countMismatch) (has : as = []) (span_eq : p.span? = none)

section

variable {number : ℤ} {length : ℕ}

theorem LexicalError.problem_pointsInto {e : LexicalError} (h : e.span.Inside number length) :
    e.problem.PointsInto number length [] := by
  cases e <;> exact .place h rfl (by simp [problem, Problem.unexpectedCharacter, Problem.kind])

theorem GrammarError.problem_pointsInto {e : GrammarError}
    (h : e.found.span.Inside number length) (as : List Argument) :
    e.problem.PointsInto number length as :=
  .place h rfl (by simp [problem, Problem.kind])

/-- A problem between directives and arguments points at an argument, if there is one. -/
theorem argumentProblem?_pointsInto {ss : List Specifier} {as : List Argument} {p : Problem}
    (h : argumentProblem? ss as = some p) (has : ∀ a ∈ as, a.span.Inside number length) :
    p.PointsInto number length as := by
  unfold argumentProblem? at h
  -- types are reported at the argument of the pair, and numbers at the last one, if there is any
  split at h
  · obtain ⟨k, -, s, -, a, ha, rfl⟩ := exists_typeMismatch h
    exact .place (has a ha) rfl fun _ => List.ne_nil_of_mem ha
  · cases h
    cases hlast : as.getLast? with
    | none => exact .missing rfl (List.getLast?_eq_none_iff.mp hlast) rfl
    | some a =>
      have ha : a ∈ as := List.mem_of_getLast? hlast
      exact .place (has a ha) rfl fun _ => List.ne_nil_of_mem ha

end

namespace TokenSeq

variable {s : TokenSeq}

/-- The token that an error reports is one of the sequence. -/
theorem found_mem {e : GrammarError} (he : s.attempt.error? = some e) : e.found ∈ s.toList := by
  have hattempts := s.attempts_attempt
  rw [hattempts.found_eq he, toList]
  cases hrest : s.attempt.rest with
  | nil => simp
  | cons t rest =>
    have hsuffix := hattempts.suffix
    rw [hrest] at hsuffix
    exact List.mem_append_left _ (hsuffix.subset List.mem_cons_self)

/-- The problem of a sequence points into a line that its tokens and arguments lie in. -/
theorem outcome_pointsInto {propagate : Bool} {number : ℤ} {length : ℕ} {p : Problem}
    (h : (s.outcome propagate).problem? = some p)
    (htokens : ∀ t ∈ s.toList, t.span.Inside number length)
    (has : ∀ a ∈ (s.outcome propagate).arguments, a.span.Inside number length) :
    p.PointsInto number length (s.outcome propagate).arguments := by
  unfold outcome Attempt.outcome at h has ⊢
  -- a problem of the grammar has the place of a token, and the others that of an argument
  cases herror : s.attempt.error? with
  | some e =>
    simp only [herror] at h ⊢
    cases h
    exact e.problem_pointsInto (htokens e.found (found_mem herror)) _
  | none =>
    simp only [herror] at h has ⊢
    exact argumentProblem?_pointsInto h has

end TokenSeq

/-! ## Verdicts -/

/-- All places that the verdict reports lie in the line. A problem of the line has a place, unless
its arguments do not match in number because there are none. -/
structure Verdict.Located (line : String) (number : ℤ) (v : Verdict) : Prop where
  tokens : ∀ t ∈ v.tokens, t.span.Inside number line.length
  arguments : ∀ a ∈ v.outcome.arguments, a.span.Inside number line.length
  diagnostic : ∀ d ∈ v.outcome.diagnostic?, ∀ s ∈ d.span?, s.Inside number line.length
  spanless : ∀ d ∈ v.outcome.diagnostic?,
    d.span? = none ↔ d.kind = .countMismatch ∧ v.outcome.arguments = []

namespace Verdict

/-- A verdict is located if its tokens, its arguments and its problem are. -/
theorem located_of_pointsInto {line : String} {number : ℤ} {v : Verdict}
    (htokens : ∀ t ∈ v.tokens, t.span.Inside number line.length)
    (harguments : ∀ a ∈ v.outcome.arguments, a.span.Inside number line.length)
    (hproblem : ∀ p ∈ v.outcome.problem?, p.PointsInto number line.length v.outcome.arguments) :
    v.Located line number := by
  constructor
  · exact htokens
  · exact harguments
  · intro d hd s hs
    rcases Option.map_eq_some_iff.mp hd with ⟨p, hp, rfl⟩
    have hspan : p.span? = some s := hs
    -- a problem has a place in the line, or has none because there is no argument to point to
    cases hproblem p hp with
    | place hinside span_eq =>
      rw [span_eq] at hspan
      cases hspan
      exact hinside
    | missing _ _ span_eq =>
      rw [span_eq] at hspan
      cases hspan
  · intro d hd
    rcases Option.map_eq_some_iff.mp hd with ⟨p, hp, rfl⟩
    show p.span? = none ↔ p.kind = .countMismatch ∧ v.outcome.arguments = []
    cases hproblem p hp with
    | place _ span_eq hcount => simpa [span_eq] using hcount
    | missing hkind has span_eq => simp [span_eq, hkind, has]

theorem located_ofLine (options : Options) (line : String) (number : ℤ) :
    (ofLine options line number).Located line number := by
  unfold ofLine
  cases hs : TokenSeq.ofLine options.toStrictness line number with
  | error e =>
    -- with a lexical error there are no tokens and no arguments, only the error
    apply located_of_pointsInto
    · simp
    · simp [Outcome.ofProblem]
    · rintro p ⟨⟩
      exact LexicalError.problem_pointsInto (LexicalError.inside_of_ofLine hs)
  | ok s =>
    have htokens := TokenSeq.inside_of_ofLine hs
    have harguments : ∀ a ∈ (s.outcome options.propagate).arguments,
        a.span.Inside number line.length := by
      intro a ha
      obtain ⟨i, j, hselects⟩ := Argument.exists_selects hs ha
      rw [hselects.span_eq, ← String.length_toList]
      exact Span.inside_ofIndex number hselects.lt.le hselects.le_length
    apply located_of_pointsInto htokens harguments
    intro p hp
    exact TokenSeq.outcome_pointsInto hp htokens harguments

/-- All places that a verdict reports lie in the line, and the number of the line is a label: under
another number the line has the same verdict with that number in its place, and nothing else
changes. -/
theorem ofLine_located (options : Options) (line : String) (n m : ℤ) :
    (ofLine options line n).Located line n ∧
      ofLine options line m = (ofLine options line n).renumber (fun _ => m) ∧
      (ofLine options line m).outcome.Agrees (ofLine options line n).outcome := by
  have hrenumber : ofLine options line m = (ofLine options line n).renumber (fun _ => m) :=
    ofLine_renumber options line n fun _ => m
  refine ⟨located_ofLine options line n, hrenumber, ?_⟩
  rw [hrenumber]
  exact Outcome.agrees_move _ _

/-- A line without arguments has a problem with their number and no place for it. -/
example : (ofLine {} "printf(\"%d\");" 3).outcome.diagnostic?.map Diagnostic.span? = some none := by
  decide +kernel

end Verdict

end PrintfLint
