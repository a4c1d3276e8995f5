import PrintfLint.Proofs.Statement.Verdict

/-!
# PrintfLint.Proofs.Verdict.Strictness — what strictness changes about a verdict

* `Verdict.valid_iff_exists` — a line is valid if its tokens have a valid outcome;
* `TokenSeq.not_unclosed_of_isStatement`, `Verdict.not_unclosed_of_valid` — no statement and no
  valid line holds a literal that is not closed;
* `Verdict.ofLine_strict` — strict options turn lines that are accepted into lexical errors, and
  do so to the lines with a token that they refuse and to no others.

A literal that is not closed takes the rest of the line with it, and so the closing parenthesis that
a statement needs. This is why strict literals cost no line its validity.
-/

namespace PrintfLint

/-- The last token of a statement before the end of input is a semicolon. -/
theorem IsStatement.eq_append_semicolon {ts : List Token} {fin literal : Token}
    {es : List Expr} (h : IsStatement (ts ++ [fin]) literal es) :
    ∃ us s, ts = us ++ [s] ∧ s.kind = .semicolon := by
  generalize hall : ts ++ [fin] = all at h
  -- the token in front of the end of input is named by both rules for statements
  cases h with
  | @bare p o _ c s e _ _ _ _ hs _ =>
    have hsplit : ts ++ [fin] = [p, o, literal, c, s] ++ [e] := hall
    exact ⟨[p, o, literal, c], s, (List.append_inj' hsplit rfl).1, hs⟩
  | @supplied p o _ m c s e us _ _ _ _ _ _ _ hs _ =>
    have hsplit : ts ++ [fin] = p :: o :: literal :: m :: (us ++ [c]) ++ [s] ++ [e] := by
      rw [hall]
      simp
    exact ⟨_, s, (List.append_inj' hsplit rfl).1, hs⟩

namespace Verdict

variable {options : Options} {line : String} {number : Int}

/-- A line is valid if it has tokens and their outcome is valid. -/
theorem valid_iff_exists :
    (ofLine options line number).valid = true ↔
      ∃ s, TokenSeq.ofLine options.toStrictness line number = .ok s ∧
        (s.outcome options.propagate).valid = true := by
  cases hs : TokenSeq.ofLine options.toStrictness line number with
  | error e => simp [Verdict.valid, ofLine, hs, Outcome.valid, Outcome.ofProblem]
  | ok s => simp [Verdict.valid, outcome_of_ok hs]

/-- The tokens of a line form a statement, if no lexical or grammatical problem is found. -/
theorem exists_says (hlex : (ofLine options line number).outcome.kind? ≠ some .lexical)
    (hgram : (ofLine options line number).outcome.kind? ≠ some .grammar) :
    ∃ literal es, Says options line number literal es := by
  by_contra hnone
  rcases kind?_of_no_statement fun l es hsays => hnone ⟨l, es, hsays⟩ with ⟨hkind, _⟩ | ⟨hkind, _⟩
  · exact hlex hkind
  · exact hgram hkind

/-- The tokens of a valid line form a statement. -/
theorem exists_says_of_valid (h : (ofLine options line number).valid = true) :
    ∃ literal es, Says options line number literal es := by
  have hkind : (ofLine options line number).outcome.kind? = none := (valid_iff_kind? _).mp h
  apply exists_says <;> simp [hkind]

end Verdict

namespace TokenSeq

variable {strict : Strictness}

/-- The end of input is a token that no scan refuses. -/
theorem forall_allowed_iff {s : TokenSeq} :
    (∀ t ∈ s.body, t.Allowed strict) ↔
      (strict.numbers = true → ∀ t ∈ s.toList, ¬ t.Malformed) ∧
        (strict.literals = true → ∀ t ∈ s.toList, ¬ t.Unclosed) := by
  have hlast : ¬ s.last.Malformed ∧ ¬ s.last.Unclosed := by
    simp [Token.Malformed, Token.Unclosed, s.last_kind]
  constructor
  · intro h
    constructor
    · intro hn t ht
      -- a token of the line, or the end of input
      rcases List.mem_append.mp ht with ht | ht
      · exact (h t ht).number hn
      · rw [List.mem_singleton.mp ht]
        exact hlast.1
    · intro hl t ht
      rcases List.mem_append.mp ht with ht | ht
      · exact (h t ht).literal hl
      · rw [List.mem_singleton.mp ht]
        exact hlast.2
  · rintro ⟨hnumber, hliteral⟩ t ht
    have hmem : t ∈ s.toList := List.mem_append_left _ ht
    exact ⟨fun hn => hnumber hn t hmem, fun hl => hliteral hl t hmem⟩

/-- A line has the tokens under given strictness that it has without it, if none is refused. -/
theorem ofLine_eq_ok_iff_allowed {line : String} {number : Int} {s : TokenSeq} :
    ofLine strict line number = .ok s ↔
      ofLine {} line number = .ok s ∧
        (strict.numbers = true → ∀ t ∈ s.toList, ¬ t.Malformed) ∧
        (strict.literals = true → ∀ t ∈ s.toList, ¬ t.Unclosed) := by
  rw [← forall_allowed_iff]
  exact scan_eq_ok_iff_allowed

/-- No statement holds a literal that is not closed. -/
theorem not_unclosed_of_isStatement {line : String} {number : Int} {s : TokenSeq}
    (hs : ofLine strict line number = .ok s) {literal : Token} {es : List Expr}
    (h : IsStatement s.toList literal es) : ∀ t ∈ s.toList, ¬ t.Unclosed := by
  intro t ht hopen
  rcases List.mem_append.mp ht with ht | ht
  · -- the literal would be the last token, where a statement has its semicolon
    have hlast := (tiles_of_ofLine hs).1.getLast?_of_unclosed ht hopen
    rcases h.eq_append_semicolon with ⟨ws, c, hws, hc⟩
    rw [hws, List.getLast?_concat] at hlast
    cases hlast
    rw [hopen.1] at hc
    cases hc
  · rw [List.mem_singleton.mp ht, Token.Unclosed, s.last_kind] at hopen
    cases hopen.1

end TokenSeq

namespace Verdict

/-- No valid line holds a literal that is not closed. -/
theorem not_unclosed_of_valid {options : Options} {line : String} {number : Int}
    (h : (ofLine options line number).valid = true) {s : TokenSeq}
    (hs : TokenSeq.ofLine options.toStrictness line number = .ok s) :
    ∀ t ∈ s.toList, ¬ t.Unclosed := by
  rcases exists_says_of_valid h with ⟨literal, es, s', hs', hstatement⟩
  rw [hs] at hs'
  cases hs'
  exact TokenSeq.not_unclosed_of_isStatement hs hstatement

/-- A line is valid under strict options if it is so without them and holds no number that they
refuse. -/
theorem valid_strict_iff (strict : Strictness) (propagate : Bool) (line : String) (number : Int) :
    (ofLine ⟨strict, propagate⟩ line number).valid = true ↔
      (ofLine ⟨{}, propagate⟩ line number).valid = true ∧
        (strict.numbers = true → ∀ s, TokenSeq.ofLine {} line number = .ok s →
          ∀ t ∈ s.toList, ¬ t.Malformed) := by
  constructor
  · intro h
    rcases valid_iff_exists.mp h with ⟨s, hs, hvalid⟩
    rcases TokenSeq.ofLine_eq_ok_iff_allowed.mp hs with ⟨hpermissive, hnumber, _⟩
    refine ⟨valid_iff_exists.mpr ⟨s, hpermissive, hvalid⟩, ?_⟩
    intro hn s' hs'
    rw [hpermissive] at hs'
    cases hs'
    exact hnumber hn
  · -- a valid line has no open literal, so only its numbers can be refused
    rintro ⟨h, hnumber⟩
    rcases valid_iff_exists.mp h with ⟨s, hs, hvalid⟩
    have hliteral := not_unclosed_of_valid h hs
    have hstrict : TokenSeq.ofLine strict line number = .ok s :=
      TokenSeq.ofLine_eq_ok_iff_allowed.mpr ⟨hs, fun hn => hnumber hn s hs, fun _ => hliteral⟩
    exact valid_iff_exists.mpr ⟨s, hstrict, hvalid⟩

/-- On a valid line nothing depends on whether strict literals are asked for. -/
theorem ofLine_strict_literals {strict : Strictness} {propagate : Bool} {line : String}
    {number : Int} (h : (ofLine ⟨strict, propagate⟩ line number).valid = true) (literals : Bool) :
    ofLine ⟨{ strict with literals }, propagate⟩ line number =
      ofLine ⟨strict, propagate⟩ line number := by
  rcases valid_iff_exists.mp h with ⟨s, hs, _⟩
  rcases TokenSeq.ofLine_eq_ok_iff_allowed.mp hs with ⟨hpermissive, hnumber, _⟩
  have hliteral := not_unclosed_of_valid h hs
  have hother : TokenSeq.ofLine { strict with literals } line number = .ok s :=
    TokenSeq.ofLine_eq_ok_iff_allowed.mpr ⟨hpermissive, hnumber, fun _ => hliteral⟩
  simp only [ofLine, hs, hother]

/-- What strict options do to a line. They leave it the tokens that it has without them, unless one
of these is refused: a number with two points or more, or a literal that is not closed. So a line is
valid if it is so without them and holds no number that they refuse. Whether strict literals are
asked for changes no line's validity, and only what is reported of an invalid one. -/
theorem ofLine_strict (strict : Strictness) (propagate : Bool) (line : String) (number : Int) :
    (∀ s, TokenSeq.ofLine strict line number = .ok s ↔
      TokenSeq.ofLine {} line number = .ok s ∧
        (strict.numbers = true → ∀ t ∈ s.toList, ¬ t.Malformed) ∧
        (strict.literals = true → ∀ t ∈ s.toList, ¬ t.Unclosed)) ∧
    ((ofLine ⟨strict, propagate⟩ line number).valid = true ↔
      (ofLine ⟨{}, propagate⟩ line number).valid = true ∧
        (strict.numbers = true → ∀ s, TokenSeq.ofLine {} line number = .ok s →
          ∀ t ∈ s.toList, ¬ t.Malformed)) ∧
    ∀ literals,
      (ofLine ⟨{ strict with literals }, propagate⟩ line number).valid =
        (ofLine ⟨strict, propagate⟩ line number).valid ∧
      ((ofLine ⟨strict, propagate⟩ line number).valid = true →
        ofLine ⟨{ strict with literals }, propagate⟩ line number =
          ofLine ⟨strict, propagate⟩ line number) := by
  refine ⟨fun s => TokenSeq.ofLine_eq_ok_iff_allowed, valid_strict_iff .., ?_⟩
  intro literals
  refine ⟨?_, fun h => ofLine_strict_literals h literals⟩
  -- the condition on the line asks for the strictness about numbers only
  have hother := valid_strict_iff { strict with literals } propagate line number
  rw [Bool.eq_iff_iff]
  exact hother.trans (valid_strict_iff strict propagate line number).symm

end Verdict

end PrintfLint
