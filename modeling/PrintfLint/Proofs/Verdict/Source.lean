import PrintfLint.Proofs.Text.Lines
import PrintfLint.Proofs.Token.Moved
import PrintfLint.Verdict

/-!
# PrintfLint.Proofs.Verdict.Source — lines are judged one by one

* `Position.renumber`, `Verdict.renumber` — the same place, and the same verdict, with another
  number for the line;
* `Position.down`, `Verdict.down` — the same place, and the same verdict, some lines further down;
* `Verdict.ofLine_renumber` — a line has the same verdict under every number;
* `Verdict.ofLines_append` — lines after other lines have their own verdicts, further down;
* `Verdict.ofSource_append` — the same for a source text in two parts.

What a line is called appears in its verdict as a label and nowhere else. So nothing passes from
one line to the next but the count.
-/

namespace PrintfLint

/-- The same place in a line with another number. -/
def Position.renumber (f : Int → Int) (p : Position) : Position :=
  { p with line := f p.line }

/-- The place with the same column, some lines further down. -/
def Position.down (k : Int) (p : Position) : Position :=
  { p with line := p.line + k }

theorem Position.slides_renumber (f : Int → Int) : Slides (renumber f) :=
  fun _ _ => rfl

/-- What is said of a fault of the text does not mention the line. -/
theorem LexicalError.problem_renumber (f : Int → Int) (e : LexicalError) :
    (e.move (Position.renumber f)).problem = e.problem.move (Position.renumber f) := by
  cases e <;> rfl

namespace Verdict

/-- The verdict on the same line under another number. -/
def renumber (f : Int → Int) (v : Verdict) : Verdict where
  line := v.line
  number := f v.number
  tokens := v.tokens.map (Token.move (Position.renumber f))
  outcome := v.outcome.move (Position.renumber f)

/-- The verdict on the same line, some lines further down. -/
def down (k : Int) (v : Verdict) : Verdict where
  line := v.line
  number := v.number + k
  tokens := v.tokens.map (Token.move (Position.down k))
  outcome := v.outcome.move (Position.down k)

/-- Under another number a line has the same verdict with that number. -/
theorem ofLine_renumber (options : Options) (line : String) (number : Int) (f : Int → Int) :
    ofLine options line (f number) = (ofLine options line number).renumber f := by
  have hscan : TokenSeq.ofLine options.toStrictness line (f number) =
      TokenSeq.moveScan (Position.renumber f)
        (TokenSeq.ofLine options.toStrictness line number) :=
    TokenSeq.scan_move (Position.slides_renumber f) options.toStrictness (.ofIndex number 0)
      line.toList
  unfold ofLine
  rw [hscan]
  cases TokenSeq.ofLine options.toStrictness line number with
  | error e =>
    -- there are no tokens and no arguments that could move
    simp only [TokenSeq.moveScan, LexicalError.problem_renumber]
    rfl
  | ok s =>
    simp only [TokenSeq.moveScan, TokenSeq.outcome_move]
    simp only [renumber, TokenSeq.toList, TokenSeq.move, List.map_append, List.map_cons,
      List.map_nil]

theorem ofLine_down (options : Options) (line : String) (number k : Int) :
    ofLine options line (number + k) = (ofLine options line number).down k :=
  ofLine_renumber options line number (· + k)

/-- Lines that come after other lines are judged as they are without them, and counted on. -/
theorem ofLines_append (options : Options) (before after : List String) :
    ofLines options (before ++ after) =
      ofLines options before ++ (ofLines options after).map (down before.length) := by
  -- the count of the later lines goes on where that of the earlier ones ends
  have hcount : after.zipIdx (1 + before.length) =
      (after.zipIdx 1).map (Prod.map id (· + before.length)) := by
    rw [List.map_snd_add_zipIdx_eq_zipIdx, Nat.add_comm]
  unfold ofLines
  rw [List.zipIdx_append, List.map_append, hcount, List.map_map, List.map_map]
  congr 1
  apply List.map_congr_left
  rintro ⟨line, number⟩ _
  exact ofLine_down options (Text.trimBreaks line) number before.length

/-- Lines are judged independently. The verdicts on a text in two parts with a line feed between
them are those on the first part, with the line feed, and after them those on the second part,
further down by the lines of the first. -/
theorem ofSource_append (options : Options) (a b : String) :
    ofSource options (a ++ "\n" ++ b) =
      ofSource options (a ++ "\n") ++
        (ofSource options b).map (down (Text.lines (a ++ "\n")).length) := by
  unfold ofSource
  rw [Text.lines_append_newline, ofLines_append]

end Verdict

end PrintfLint
