import PrintfLint.Data
import PrintfLint.Grammar
import PrintfLint.Verdict

/-!
# PrintfLint.Report — verdicts as data

Each type of this library that a report shows, as a record of its parts. How long the verdict on a
line took is not a matter of the line; a report is given this with the verdict.
-/

namespace PrintfLint

/-- Data for a value that may be missing. -/
def Data.ofOption {α : Type} (f : α → Data) : Option α → Data
  | none => .null
  | some a => f a

/-- A list of data. -/
def Data.ofList {α : Type} (f : α → Data) (xs : List α) : Data :=
  .seq (xs.map f)

def Position.toData (p : Position) : Data :=
  .record [("line", .int p.line), ("column", .int p.column), ("index", .int p.index)]

def Span.toData (s : Span) : Data :=
  .record [("start", s.start.toData), ("end", s.stop.toData)]

def Token.toData (t : Token) : Data :=
  .record [("kind", .member (.text t.kind.name)), ("text", .text t.text), ("span", t.span.toData)]

def Diagnostic.toData (d : Diagnostic) : Data :=
  .record [("kind", .member (.text d.kind.name)), ("message", .text d.message),
    ("span", .ofOption Span.toData d.span?), ("hint", .ofOption .text d.hint?)]

def Specifier.toData (s : Specifier) : Data :=
  .record [("text", .text s.text), ("value_type", .member (.text s.type.name)),
    ("offset", .int s.offset)]

def Argument.toData (a : Argument) : Data :=
  .record [("value_type", .member (.text a.type.name)), ("span", a.span.toData)]

def Outcome.toData (o : Outcome) : Data :=
  .record [("valid", .bool o.valid), ("diagnostic", .ofOption Diagnostic.toData o.diagnostic?),
    ("specifiers", .ofList Specifier.toData o.specifiers),
    ("arguments", .ofList Argument.toData o.arguments)]

/-- A time in milliseconds, `mantissa / 10 ^ places`. -/
structure Duration where
  mantissa : Int
  places : Nat
deriving DecidableEq, Repr

def Duration.toData (t : Duration) : Data :=
  .decimal t.mantissa t.places

/-- A verdict that took the time `elapsed`. -/
def Verdict.toData (elapsed : Duration) (v : Verdict) : Data :=
  .record [("line", .text v.line), ("line_number", .int v.number),
    ("tokens", .ofList Token.toData v.tokens), ("outcome", v.outcome.toData),
    ("duration_ms", elapsed.toData)]

def Production.toData (p : Production) : Data :=
  .record [("lhs", .text p.lhs), ("rhs", .tuple (p.rhs.map .text))]

end PrintfLint
