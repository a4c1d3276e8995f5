import PrintfLint.Verdict

/-!
# PrintfLint.Command.Log — log entries

Levels, entries, and the entries that the check of a source text makes.
-/

namespace PrintfLint.Command

/-- How important an entry is. -/
inductive Level where
  | debug
  | info
  | warning
  | error
  | critical
deriving DecidableEq, Repr

namespace Level

/-- The name of a level. -/
def name : Level → String
  | debug => "DEBUG"
  | info => "INFO"
  | warning => "WARNING"
  | error => "ERROR"
  | critical => "CRITICAL"

/-- All levels, the least important first. -/
def all : List Level :=
  [debug, info, warning, error, critical]

/-- The level of a given name. -/
def ofName? (s : String) : Option Level :=
  all.find? fun l => l.name = s

/-- The place of a level in the order of importance. -/
def rank : Level → Nat
  | debug => 0
  | info => 1
  | warning => 2
  | error => 3
  | critical => 4

end Level

/-- An entry of the log. -/
structure Entry where
  level : Level
  message : String
deriving DecidableEq, Repr

namespace Entry

/-- An entry as a line of the log. -/
def render (time : String) (e : Entry) : String :=
  time ++ " - printf_validator - " ++ e.level.name ++ " - " ++ e.message ++ "\n"

/-- The lines of the entries that are important enough. -/
def renderAll (time : String) (threshold : Level) (es : List Entry) : String :=
  String.join ((es.filter fun e => threshold.rank ≤ e.level.rank).map (render time))

end Entry

/-- Is the token a literal that is not closed? -/
def isOpenLiteral (t : Token) : Bool :=
  t.kind = .literal && !t.text.toList.tail.contains '"'

/-- The entries about a line: its open literal, and the verdict. -/
def entriesOf (v : Verdict) : List Entry :=
  (v.tokens.filter isOpenLiteral).map (fun t =>
    ⟨.debug, "Unterminated string literal at column " ++ toString t.span.start.column ++
      " kept as-is"⟩) ++
  [⟨.debug, "line " ++ toString v.number ++
    match v.outcome.reason? with
    | none => " valid (" ++ toString v.outcome.specifiers.length ++ " specifier(s))"
    | some reason => " invalid: " ++ reason⟩]

end PrintfLint.Command
