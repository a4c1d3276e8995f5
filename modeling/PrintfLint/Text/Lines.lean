/-!
# PrintfLint.Text.Lines — a source text as lines

A line ends at a line feed, a carriage return or the pair of both; form feeds and other separators
belong to the line. What follows the last line break is a line only if it is not empty.

* `lines` — the lines of a source, without their ends;
* `joinBreaks` — the source with every line break written as a line feed;
* `trimBreaks` — a line without the line break characters at its end.
-/

namespace PrintfLint.Text

/-- The two characters that end a line. -/
def isBreak (c : Char) : Bool :=
  c = '\n' || c = '\r'

/-- What follows one line break at the front: a carriage return takes a line feed with it. -/
def afterBreak : List Char → List Char
  | '\r' :: '\n' :: rest => rest
  | _ :: rest => rest
  | [] => []

/-- The characters before the first line break. -/
def beforeBreak (cs : List Char) : List Char :=
  cs.takeWhile fun c => !isBreak c

/-- The first line break and all that follows it. -/
def fromBreak (cs : List Char) : List Char :=
  cs.dropWhile fun c => !isBreak c

theorem afterBreak_length_lt (c : Char) (cs : List Char) :
    (afterBreak (c :: cs)).length < (c :: cs).length := by
  unfold afterBreak
  split
  · simp_all only [List.cons.injEq, List.length_cons]
    omega
  · simp_all
  · simp

theorem fromBreak_length_le (cs : List Char) : (fromBreak cs).length ≤ cs.length :=
  (List.dropWhile_sublist _).length_le

/-- The lines of a source, as lists of characters. -/
def charLines (cs : List Char) : List (List Char) :=
  match _h : fromBreak cs with
  | [] => if cs.isEmpty then [] else [cs]
  | b :: rest => beforeBreak cs :: charLines (afterBreak (b :: rest))
termination_by cs.length
decreasing_by
  have := afterBreak_length_lt b rest
  have := fromBreak_length_le cs
  simp_all only [List.length_cons]
  omega

/-- The lines of a source text. -/
def lines (source : String) : List String :=
  (charLines source.toList).map String.ofList

/-- Writes every line break as one line feed. -/
def joinBreaks (cs : List Char) : List Char :=
  match _h : fromBreak cs with
  | [] => cs
  | b :: rest => beforeBreak cs ++ '\n' :: joinBreaks (afterBreak (b :: rest))
termination_by cs.length
decreasing_by
  have := afterBreak_length_lt b rest
  have := fromBreak_length_le cs
  simp_all only [List.length_cons]
  omega

/-- Drops the run of line break characters at the end of a line. -/
def trimBreaks (line : String) : String :=
  String.ofList (line.toList.reverse.dropWhile isBreak).reverse

end PrintfLint.Text
