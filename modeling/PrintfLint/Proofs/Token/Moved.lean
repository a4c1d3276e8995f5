import PrintfLint.Proofs.Statement.Moved
import PrintfLint.Proofs.Token.Tiling

/-!
# PrintfLint.Proofs.Token.Moved — scans that start elsewhere

* `Position.Slides` — a change of positions that keeps the distances within a line;
* `LexicalError.move`, `TokenSeq.moveScan` — the same fault, and the same scan, elsewhere;
* `TokenSeq.scan_move` — a scan that starts at the new place finds the moved tokens or the moved
  fault.

A scan looks at characters only. It counts positions on from where it starts, so it is enough that
counting on and moving may change places.
-/

namespace PrintfLint

/-- It makes no difference whether one counts on first or moves first. -/
def Position.Slides (p : Position → Position) : Prop :=
  ∀ q n, p (q.advance n) = (p q).advance n

variable {p : Position → Position}

/-- The fault at its new place. -/
def LexicalError.move (p : Position → Position) : LexicalError → LexicalError
  | unexpected c start => unexpected c (p start)
  | malformedNumber text start => malformedNumber text (p start)
  | unterminated start stop => unterminated (p start) (p stop)

/-! ## Lexemes -/

namespace Lexeme

theorem token_move (hp : Position.Slides p) (l : Lexeme) (start : Position) :
    l.token (p start) = (l.token start).move p := by
  rw [token, token, Token.move, Span.move, hp]

theorem refusal?_move (hp : Position.Slides p) (strict : Strictness) (l : Lexeme)
    (start : Position) :
    l.refusal? strict (p start) = (l.refusal? strict start).map (LexicalError.move p) := by
  unfold refusal?
  split
  · split <;> rfl
  · split
    · rw [Option.map_some, LexicalError.move, hp]
    · rfl
  · rfl

end Lexeme

/-! ## Scans -/

namespace TokenSeq

/-- The outcome of a scan at its new place. -/
def moveScan (p : Position → Position) :
    Except LexicalError TokenSeq → Except LexicalError TokenSeq
  | .ok s => .ok (s.move p)
  | .error e => .error (e.move p)

/-- A scan that starts elsewhere comes to the same outcome elsewhere. -/
theorem scan_move (hp : Position.Slides p) (strict : Strictness) (start : Position)
    (cs : List Char) : scan strict (p start) cs = moveScan p (scan strict start cs) := by
  induction hleft : cs.length using Nat.strong_induction_on generalizing start cs with
  | _ left ih =>
    cases cs with
    | nil =>
      rw [scan_nil, scan_nil]
      rfl
    | cons c cs =>
      rw [List.length_cons] at hleft
      by_cases hblank : Text.isBlank c
      · rw [scan_blank hblank, scan_blank hblank, ← hp]
        exact ih cs.length (by omega) _ cs rfl
      · rw [Bool.not_eq_true] at hblank
        cases hnext : Lexeme.next? c cs with
        | none =>
          rw [scan_unexpected hblank hnext, scan_unexpected hblank hnext]
          rfl
        | some l =>
          have hshort := Lexeme.next?_rest_length_le hnext
          have hrest := ih l.rest.length (by omega) (start.advance l.text.length) l.rest rfl
          rw [scan_lexeme hblank hnext, scan_lexeme hblank hnext, Lexeme.accept, Lexeme.accept,
            Lexeme.refusal?_move hp]
          cases l.refusal? strict start with
          | some e => rfl
          | none =>
            -- the lexeme is accepted at both places, and the scans go on in step
            simp only [Option.map_none]
            rw [← hp, hrest, Lexeme.token_move hp]
            cases scan strict (start.advance l.text.length) l.rest <;> rfl

end TokenSeq

end PrintfLint
