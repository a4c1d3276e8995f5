/-!
# PrintfLint.Position — places in a source

* `Position` — a line, a column counted from one and an index counted from zero;
* `Span` — a stretch between two positions.

Lines, columns and indices count code points. They are integers of any size and sign, since a
position may be handed in from outside; the positions that scanning makes have `column = index + 1`.
-/

namespace PrintfLint

/-- A place in a source. -/
structure Position where
  line : Int
  column : Int
  index : Int
deriving DecidableEq, Repr

namespace Position

/-- The position before the character number `index` of a line. -/
def ofIndex (line : Int) (index : Nat) : Position :=
  ⟨line, index + 1, index⟩

/-- The position `n` characters further on in the same line. -/
def advance (p : Position) (n : Nat) : Position :=
  ⟨p.line, p.column + n, p.index + n⟩

end Position

/-- A stretch of a source, from `start` up to but without the character at `stop`. -/
structure Span where
  start : Position
  stop : Position
deriving DecidableEq, Repr

/-- The stretch from the start of one span to the end of another. -/
def Span.join (a b : Span) : Span :=
  ⟨a.start, b.stop⟩

end PrintfLint
