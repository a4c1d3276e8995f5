import PrintfLint.Text.Printable

/-!
# PrintfLint.Text.Quoted — quoted text in messages

A text that a message quotes is written on one line, between quotation marks:

* `quote` — the marks and the escapes for one text;
* `quoteList` — a bracketed list of quoted texts.
-/

namespace PrintfLint.Text

/-- The mark around a text: a double quotation mark when only single ones occur inside it, otherwise
a single one. -/
def quotationMark (cs : List Char) : Char :=
  if '\'' ∈ cs ∧ '"' ∉ cs then '"' else '\''

/-- The last hexadecimal digits of a number, in lower case, as many as `width` asks for or more. -/
def hexadecimal (width n : Nat) : List Char :=
  let digits := Nat.toDigits 16 n
  List.replicate (width - digits.length) '0' ++ digits

/-- One character inside the marks. A backslash escapes itself and the mark, the usual letters
stand for tab and line breaks, and what is not printable is written by its code point. -/
def escapeIn (mark c : Char) : List Char :=
  if c = mark ∨ c = '\\' then ['\\', c]
  else if c = '\t' then ['\\', 't']
  else if c = '\n' then ['\\', 'n']
  else if c = '\r' then ['\\', 'r']
  else if isPrintable c then [c]
  else if c.toNat ≤ 0xFF then '\\' :: 'x' :: hexadecimal 2 c.toNat
  else if c.toNat ≤ 0xFFFF then '\\' :: 'u' :: hexadecimal 4 c.toNat
  else '\\' :: 'U' :: hexadecimal 8 c.toNat

/-- A text between its quotation marks. -/
def quote (s : String) : String :=
  let mark := quotationMark s.toList
  String.ofList (mark :: s.toList.flatMap (escapeIn mark) ++ [mark])

/-- Quoted texts in brackets, with a comma and a space between them. -/
def quoteList (texts : List String) : String :=
  "[" ++ ", ".intercalate (texts.map quote) ++ "]"

end PrintfLint.Text
