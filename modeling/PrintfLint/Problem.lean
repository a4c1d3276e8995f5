import PrintfLint.Position
import PrintfLint.Specifier

/-!
# PrintfLint.Problem — what makes a line invalid

* `Problem` — all that is known about a fault of a line;
* `Problem.message`, `Problem.hint?` — its wording;
* `Diagnostic` — the part of it that a report shows.
-/

namespace PrintfLint

/-- The four ways for a line to be invalid. -/
inductive ProblemKind where
  | lexical
  | grammar
  | countMismatch
  | typeMismatch
deriving DecidableEq, Repr

/-- The name of a kind of problem in reports. -/
def ProblemKind.name : ProblemKind → String
  | lexical => "lexical"
  | grammar => "grammar"
  | countMismatch => "count-mismatch"
  | typeMismatch => "type-mismatch"

/-- What a report shows of a problem. -/
structure Diagnostic where
  kind : ProblemKind
  message : String
  span? : Option Span
  hint? : Option String
deriving DecidableEq, Repr

/-- A fault of a line. -/
inductive Problem where
  /-- The line cannot be divided into tokens because of a character. -/
  | lexical (character : String) (position : Int) (message : String) (span? : Option Span)
  /-- The tokens do not form a statement. -/
  | grammar (message : String) (span? : Option Span) (hint? : Option String)
  /-- There are more or fewer arguments than directives; the span is that of the last argument. -/
  | countMismatch (specifiers arguments : Int) (span? : Option Span)
  /-- An argument, counted from one, is not of the type that its directive asks for. -/
  | typeMismatch (position : Int) (specifier : Specifier) (supplied : ValueType)
      (span? : Option Span)
  /-- A fault of no more particular kind; it is reported among those of the grammar. -/
  | unclassified (message : String) (span? : Option Span) (hint? : Option String)
deriving DecidableEq, Repr

namespace Problem

/-- A character, at an index counted from zero, with which no token can start. -/
def unexpectedCharacter (character : String) (position : Int) (span? : Option Span) : Problem :=
  .lexical character position
    ("unexpected character '" ++ character ++ "' at column " ++ toString (position + 1)) span?

/-- The kind under which a problem is reported. -/
def kind : Problem → ProblemKind
  | lexical .. => .lexical
  | grammar .. => .grammar
  | countMismatch .. => .countMismatch
  | typeMismatch .. => .typeMismatch
  | unclassified .. => .grammar

/-- The sentence that states the problem. -/
def message : Problem → String
  | lexical _ _ m _ => m
  | grammar m _ _ => m
  | countMismatch s a _ =>
    "specifier/argument count mismatch: " ++ toString s ++ " specifier(s), " ++ toString a ++
      " argument(s)"
  | typeMismatch p s t _ =>
    "type mismatch at position " ++ toString p ++ ": '" ++ s.text ++ "' expects " ++ s.type.name ++
      ", got " ++ t.name
  | unclassified m _ _ => m

/-- The stretch of the line where the problem lies. -/
def span? : Problem → Option Span
  | lexical _ _ _ s => s
  | grammar _ s _ => s
  | countMismatch _ _ s => s
  | typeMismatch _ _ _ s => s
  | unclassified _ s _ => s

/-- Advice on how to mend the line. -/
def hint? : Problem → Option String
  | lexical .. => none
  | grammar _ _ h => h
  | countMismatch .. =>
    some "Every format specifier in the string needs exactly one argument after it."
  | typeMismatch .. => none
  | unclassified _ _ h => h

/-- The report on a problem. -/
def diagnostic (p : Problem) : Diagnostic :=
  ⟨p.kind, p.message, p.span?, p.hint?⟩

end Problem

end PrintfLint
