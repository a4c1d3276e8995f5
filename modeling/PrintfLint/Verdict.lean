import PrintfLint.Outcome
import PrintfLint.Text.Lines
import PrintfLint.Token.Scan

/-!
# PrintfLint.Verdict — the verdicts on a source text

* `Verdict` — a line, its number, its tokens and the outcome;
* `Verdict.ofLine`, `Verdict.ofLines`, `Verdict.ofSource` — the verdict on a line and the verdicts
  on many;
* `Verdict.render` — the verdict as one line of a report.

Lines are judged one by one, and a line that fails stops no other.
-/

namespace PrintfLint

/-- The verdict on a line; a line that cannot be divided into tokens has none. -/
structure Verdict where
  line : String
  number : Int
  tokens : List Token
  outcome : Outcome
deriving DecidableEq, Repr

namespace Verdict

/-- The verdict on a line. -/
def ofLine (options : Options) (line : String) (number : Int) : Verdict :=
  match TokenSeq.ofLine options.toStrictness line number with
  | .error e => ⟨line, number, [], .ofProblem e.problem⟩
  | .ok ts => ⟨line, number, ts.toList, ts.outcome options.propagate⟩

/-- Is the line valid? -/
def valid (v : Verdict) : Bool :=
  v.outcome.valid

/-- The verdicts on lines that are counted from one. A line break at the end of a line is not part
of it. -/
def ofLines (options : Options) (lines : List String) : List Verdict :=
  (lines.zipIdx 1).map fun (line, number) => ofLine options (Text.trimBreaks line) number

/-- The verdicts on the lines of a source text. -/
def ofSource (options : Options) (source : String) : List Verdict :=
  ofLines options (Text.lines source)

/-- The verdict as one line of a report. -/
def render (v : Verdict) : String :=
  match v.outcome.reason? with
  | none => "Line " ++ toString v.number ++ ": valid command."
  | some reason => "Line " ++ toString v.number ++ ": invalid command. [" ++ reason ++ "]"

/-- How many of the verdicts find a line invalid. -/
def invalidCount (vs : List Verdict) : Nat :=
  vs.countP fun v => !v.valid

end Verdict

end PrintfLint
