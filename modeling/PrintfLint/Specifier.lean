import PrintfLint.ValueType

/-!
# PrintfLint.Specifier — directives in a format string

A directive starts at a percent sign and goes on over ASCII letters, digits, underscores and dots.

* `Specifier` — a directive, the type that it asks for and its place in the literal;
* `Specifier.classify` — the type that a directive asks for;
* `Specifier.extract` — the directives of a literal, quotation marks included in the count.
-/

namespace PrintfLint

/-- A directive of a format string; `offset` counts characters from the start of the literal. -/
structure Specifier where
  text : String
  type : ValueType
  offset : Int
deriving DecidableEq, Repr

namespace Specifier

/-- The characters that continue a directive. -/
def isPart (c : Char) : Bool :=
  c.isAlphanum || c = '_' || c = '.'

/-- The type that a directive asks for. A float may have one digit of precision; all that is not
listed asks for no particular type. -/
def classifyChars : List Char → ValueType
  | ['%', 'd'] => .integer
  | ['%', 'i'] => .integer
  | ['%', 'f'] => .float
  | ['%', 's'] => .string
  | ['%', 'c'] => .char
  | ['%', '.', d, 'f'] => if d.isDigit then .float else .unknown
  | _ => .unknown

/-- The type that a directive asks for, by its text. -/
def classify (text : String) : ValueType :=
  classifyChars text.toList

/-- The directives of a text whose first character has the given offset. A directive never runs
over the next percent sign, so each sign starts one. -/
def extractFrom (offset : Nat) : List Char → List Specifier
  | [] => []
  | c :: rest =>
    if c = '%' then
      let text := '%' :: rest.takeWhile isPart
      ⟨String.ofList text, classifyChars text, offset⟩ :: extractFrom (offset + 1) rest
    else extractFrom (offset + 1) rest

/-- The directives of a literal, in order. -/
def extract (literal : String) : List Specifier :=
  extractFrom 0 literal.toList

end Specifier

end PrintfLint
