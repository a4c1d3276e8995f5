/-!
# PrintfLint.Text.Ranges — sets of characters as code point ranges

A property of characters is given by closed ranges of code points in ascending order; `Ranges.has`
looks a character up. The property tables of this library follow Unicode 14.0.
-/

namespace PrintfLint.Text

/-- A set of code points: closed ranges in ascending order, no two of them overlapping. -/
abbrev Ranges := List (Nat × Nat)

namespace Ranges

/-- Looks a code point up; the search ends at the first range beyond it. -/
def covers : Ranges → Nat → Bool
  | [], _ => false
  | (lo, hi) :: rest, n => if n < lo then false else if n ≤ hi then true else covers rest n

/-- Does the set hold the character? -/
def has (ranges : Ranges) (c : Char) : Bool :=
  ranges.covers c.toNat

end Ranges

end PrintfLint.Text
