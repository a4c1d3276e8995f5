import PrintfLint.Service.Fault
import PrintfLint.Text.Blank

/-!
# PrintfLint.Service.Numeral — integers spelled in text

A plain numeral is a string of digits that does not start with a superfluous zero, perhaps with a
minus sign before it. A numeral handed in from outside may be padded in several ways, and each kind
of padding is taken off by itself:

1. `trim` — white space at both ends;
2. `splitSign` — the sign;
3. `dropZeros?` — zeros at the front, with the underscores that separate them;
4. `dropFraction` — a point with zeros after it;
5. `dropUnderscores` — underscores between digits.

`readInt` reads what is left, which has to be plain.
-/

namespace PrintfLint.Service

namespace Numeral

/-! ## Padding -/

/-- White space as a property of Unicode, without the four information separators. -/
def isSpace (c : Char) : Bool :=
  Text.isBlank c && !(0x1C ≤ c.toNat && c.toNat ≤ 0x1F)

/-- Drops white space at both ends. -/
def trim (cs : List Char) : List Char :=
  ((cs.dropWhile isSpace).reverse.dropWhile isSpace).reverse

/-- Takes the sign off: is it a minus sign, and what comes after it? -/
def splitSign : List Char → Bool × List Char
  | '-' :: rest => (true, rest)
  | '+' :: rest => (false, rest)
  | cs => (false, cs)

/-- The digits from one to nine. -/
def isNonzero (c : Char) : Bool :=
  c.isDigit && c ≠ '0'

/-- The characters that can follow the zeros at the front. A minus sign may stand behind the zeros
instead of before them. -/
def startsValue (c : Char) : Bool :=
  isNonzero c || c = '-'

/-- The characters that are dropped after a zero at the front. -/
def isFiller (c : Char) : Bool :=
  c = '0' || c = '_'

/-- Drops the zeros at the front and the underscores among them. The last of these characters stays
where a point or nothing follows it. There is no result for a text that cannot be a numeral. -/
def dropZeros? : List Char → Option (List Char)
  | [] => none
  | c :: cs =>
    if c = '0' then
      let last := (cs.takeWhile isFiller).getLastD c
      match cs.dropWhile isFiller with
      | [] => some [last]
      | d :: rest =>
        if d = '.' then some (last :: d :: rest)
        else if startsValue d then some (d :: rest)
        else none
    else if isNonzero c then some (c :: cs)
    else none

/-- Drops a point at the end with one zero or more after it. -/
def dropFraction (cs : List Char) : List Char :=
  match cs.dropWhile (· ≠ '.') with
  | _ :: zero :: zeros =>
    if (zero :: zeros).all (· = '0') then cs.takeWhile (· ≠ '.') else cs
  | _ => cs

/-- Drops underscores, if all of them stand between other characters. -/
def dropUnderscores (cs : List Char) : List Char :=
  if (cs.splitOn '_').all fun group => !group.isEmpty then cs.filter (· ≠ '_') else cs

/-- Takes all padding off. There is no result for some of the texts that are not numerals; the
others leave a text that is not plain. -/
def plain? (cs : List Char) : Option (List Char) :=
  let (negative, digits) := splitSign (trim cs)
  (dropZeros? digits).map fun digits =>
    let digits := dropUnderscores (dropFraction digits)
    if negative then '-' :: digits else digits

/-! ## Plain numerals -/

/-- How many characters of a plain numeral are read, its minus sign included. -/
def sizeLimit : Nat := 4300

/-- The number that digits spell; only zero itself starts with a zero. -/
def digits? : List Char → Option Nat
  | [] => none
  | c :: cs =>
    if (c :: cs).all Char.isDigit && (isNonzero c || cs.isEmpty) then
      some (Nat.ofDigitChars 10 (c :: cs) 0)
    else none

/-- Does a numeral start with more digits than are read? -/
def tooLong (signed : Bool) (digits : List Char) : Bool :=
  match digits.takeWhile Char.isDigit with
  | [] => false
  | c :: cs => isNonzero c && sizeLimit < (c :: cs).length + signed.toNat

/-- The number that digits spell, or what is wrong with them. -/
def readDigits (signed : Bool) (digits : List Char) : Except FaultKind Nat :=
  if tooLong signed digits then .error .intParsingSize
  else
    match digits? digits with
    | some n => .ok n
    | none => .error .intParsing

/-- The number that a plain numeral spells. -/
def readPlain : List Char → Except FaultKind Int
  | '-' :: digits => (readDigits true digits).map fun n => -(n : Int)
  | digits => (readDigits false digits).map fun n => (n : Int)

end Numeral

/-- An integer spelled in digits, perhaps padded. -/
def readInt (s : String) : Except FaultKind Int :=
  match Numeral.plain? s.toList with
  | none => .error .intParsing
  | some cs => Numeral.readPlain cs

end PrintfLint.Service
