import PrintfLint.Text.Ranges

/-!
# PrintfLint.Text.Blank — white space

The characters that separate tokens: the white space of Unicode 14.0 together with the four
information separators U+001C to U+001F. U+180E, U+200B, U+2060 and U+FEFF are not among them.
-/

namespace PrintfLint.Text

/-- The code points of white space. -/
def blanks : Ranges := [
  (0x9, 0xD), (0x1C, 0x20), (0x85, 0x85), (0xA0, 0xA0), (0x1680, 0x1680), (0x2000, 0x200A),
  (0x2028, 0x2029), (0x202F, 0x202F), (0x205F, 0x205F), (0x3000, 0x3000)]

/-- White space separates tokens and is otherwise ignored. -/
def isBlank (c : Char) : Bool :=
  blanks.has c

/-- Drops white space at both ends. -/
def strip (cs : List Char) : List Char :=
  ((cs.dropWhile isBlank).reverse.dropWhile isBlank).reverse

end PrintfLint.Text
