import PrintfLint.Proofs.Statement.Moved
import PrintfLint.Proofs.Statement.Verdict
import PrintfLint.Proofs.Token.Layout

/-!
# PrintfLint.Proofs.Verdict.Layout — layout does not matter

* `Outcome.Agrees` — outcomes that differ in their spans only;
* `TokenSeq.outcome_agrees` — tokens of the same kinds and texts have such outcomes;
* `Verdict.agrees_of_faces` — so have lines with such tokens;
* `Verdict.ofLine_layout` — so have a line and its tokens with other white space around them.
-/

namespace PrintfLint

/-- The outcomes agree in everything except spans. -/
structure Outcome.Agrees (o o' : Outcome) : Prop where
  valid_eq : o.valid = o'.valid
  reason_eq : o.reason? = o'.reason?
  kind_eq : o.kind? = o'.kind?
  hint_eq : o.diagnostic?.bind Diagnostic.hint? = o'.diagnostic?.bind Diagnostic.hint?
  specifiers_eq : o.specifiers = o'.specifiers
  expected_eq : o.expectedTypes = o'.expectedTypes
  supplied_eq : o.suppliedTypes = o'.suppliedTypes

/-- Outcomes that are the same once they have been moved differ in their spans only. -/
theorem Outcome.agrees_of_move_eq {p : Position → Position} {o o' : Outcome}
    (h : o.move p = o'.move p) : o.Agrees o' where
  valid_eq := by rw [← valid_move p o, h, valid_move]
  reason_eq := by rw [← reason?_move p o, h, reason?_move]
  kind_eq := by rw [← kind?_move p o, h, kind?_move]
  hint_eq := by rw [← hint?_move p o, h, hint?_move]
  specifiers_eq := by rw [← specifiers_move p o, h, specifiers_move]
  expected_eq := by rw [← expectedTypes_move p o, h, expectedTypes_move]
  supplied_eq := by rw [← suppliedTypes_move p o, h, suppliedTypes_move]

/-- An outcome that is moved keeps all but its spans. -/
theorem Outcome.agrees_move (p : Position → Position) (o : Outcome) : (o.move p).Agrees o where
  valid_eq := valid_move p o
  reason_eq := reason?_move p o
  kind_eq := kind?_move p o
  hint_eq := hint?_move p o
  specifiers_eq := specifiers_move p o
  expected_eq := expectedTypes_move p o
  supplied_eq := suppliedTypes_move p o

/-- One place for all positions. -/
def nowhere : Position → Position :=
  fun _ => ⟨0, 0, 0⟩

/-- Moved to one place, tokens of the same kinds and texts are the same. -/
theorem Token.map_move_nowhere {ts us : List Token} (h : ts.map face = us.map face) :
    ts.map (move nowhere) = us.map (move nowhere) := by
  have hfactor : move nowhere =
      (fun face => ⟨face.1, face.2, ⟨⟨0, 0, 0⟩, ⟨0, 0, 0⟩⟩⟩) ∘ face := rfl
  rw [hfactor, ← List.map_map, h, List.map_map]

namespace TokenSeq

/-- Tokens of the same kinds and texts have outcomes that differ in their spans only. -/
theorem outcome_agrees {s s' : TokenSeq}
    (h : s.toList.map Token.face = s'.toList.map Token.face) (propagate : Bool) :
    (s.outcome propagate).Agrees (s'.outcome propagate) := by
  have hmoved := Token.map_move_nowhere h
  rw [toList, toList, List.map_append, List.map_append] at hmoved
  rcases List.append_inj' hmoved rfl with ⟨hbody, hlast⟩
  have hmove : s.move nowhere = s'.move nowhere :=
    TokenSeq.ext hbody (List.singleton_inj.mp hlast)
  apply Outcome.agrees_of_move_eq
  rw [← outcome_move nowhere, hmove, outcome_move]

end TokenSeq

/-- Lines with tokens of the same kinds and texts have outcomes that differ in their spans only. -/
theorem Verdict.agrees_of_faces {options : Options} {line line' : String} {number number' : Int}
    {s s' : TokenSeq} (hs : TokenSeq.ofLine options.toStrictness line number = .ok s)
    (hs' : TokenSeq.ofLine options.toStrictness line' number' = .ok s')
    (hbody : s'.body.map Token.face = s.body.map Token.face) :
    s'.toList.map Token.face = s.toList.map Token.face ∧
      (ofLine options line' number').outcome.Agrees (ofLine options line number).outcome := by
  have hfaces : s'.toList.map Token.face = s.toList.map Token.face := by
    -- the end of input has no text in either line
    have hlast := (TokenSeq.tiles_of_ofLine hs).2
    have hlast' := (TokenSeq.tiles_of_ofLine hs').2
    simp only [TokenSeq.toList, List.map_append, hbody, hlast, hlast']
    rfl
  rw [outcome_of_ok hs, outcome_of_ok hs']
  exact ⟨hfaces, TokenSeq.outcome_agrees hfaces options.propagate⟩

/-- Layout does not matter. A line that divides into tokens keeps their kinds and texts, and has an
outcome that differs in its spans only, if the tokens are written with other white space around
them, and whatever the number of the line. -/
theorem Verdict.ofLine_layout (options : Options) {line : String} {number : Int} {s : TokenSeq}
    (hs : TokenSeq.ofLine options.toStrictness line number = .ok s) (layout : Layout s.body)
    (number' : Int) :
    ∃ s', TokenSeq.ofLine options.toStrictness layout.line number' = .ok s' ∧
      s'.toList.map Token.face = s.toList.map Token.face ∧
      (ofLine options layout.line number').outcome.Agrees (ofLine options line number).outcome := by
  rcases TokenSeq.exists_ofLine_layout hs layout number' with ⟨s', hs', hbody⟩
  exact ⟨s', hs', agrees_of_faces hs hs' hbody⟩

/-- The tokens of `printf("a`, whose literal is not closed. -/
def brokenOff : TokenSeq where
  body := [⟨.printf, "printf", ⟨.ofIndex 1 0, .ofIndex 1 6⟩⟩,
    ⟨.lparen, "(", ⟨.ofIndex 1 6, .ofIndex 1 7⟩⟩,
    ⟨.literal, "\"a", ⟨.ofIndex 1 7, .ofIndex 1 9⟩⟩]
  last := .ended 1 9
  last_kind := rfl

/-- White space before and between these tokens. -/
def brokenOffSpaced : Layout brokenOff.body where
  before := "\t"
  after := [" ", "  ", ""]
  length_eq := rfl
  blank := by
    have hall : ∀ w ∈ ["\t", " ", "  ", ""], w.toList.all Text.isBlank = true :=
      List.all_iff_forall_prop.mp (by decide +kernel)
    exact fun w hw => List.all_eq_true.mp (hall w hw)
  apart := by decide
  open_end := fun _ _ _ => rfl

/-- The line stays the same with white space, but for the places of its tokens. -/
theorem Verdict.ofLine_brokenOff :
    brokenOffSpaced.line = "\tprintf (  \"a" ∧
      TokenSeq.ofLine {} "printf(\"a" 1 = .ok brokenOff ∧
      ∃ s', TokenSeq.ofLine {} "\tprintf (  \"a" 2 = .ok s' ∧
        s'.toList.map Token.face = brokenOff.toList.map Token.face ∧
        (ofLine {} "\tprintf (  \"a" 2).outcome.Agrees (ofLine {} "printf(\"a" 1).outcome := by
  have hs : TokenSeq.ofLine {} "printf(\"a" 1 = .ok brokenOff := by decide +kernel
  have hline : brokenOffSpaced.line = "\tprintf (  \"a" := by decide
  refine ⟨hline, hs, ?_⟩
  rw [← hline]
  exact ofLine_layout {} hs brokenOffSpaced 2

end PrintfLint
