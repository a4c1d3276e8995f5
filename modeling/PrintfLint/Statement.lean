import PrintfLint.Expr.Reading

/-!
# PrintfLint.Statement — statements from tokens

A statement is `printf ( literal [, arguments] ) ;`, with nothing after it.

* `Draft` — the parts of a statement that have been read completely;
* `Attempt` — a draft, the error that ended the reading and the tokens from there on;
* `Attempt.statement`, `Attempt.body` — the readers.

The arguments enter the draft only as a whole: a list that breaks off leaves no part of itself.
-/

namespace PrintfLint

/-- The parts of a statement that have been read. -/
structure Draft where
  /-- The format string. -/
  literal? : Option Token := none
  /-- The arguments after it. -/
  arguments? : Option (List Expr) := none

/-- How far the reading of a statement came. -/
structure Attempt where
  draft : Draft
  error? : Option GrammarError
  rest : List Token

namespace Attempt

/-- Reads tokens of given kinds, one after the other. -/
def expectAll (fin : Token) : List Kind → List Token → Option GrammarError × List Token
  | [], ts => (none, ts)
  | k :: ks, ts =>
    match (Reading.expect fin k ts).result with
    | (.error e, rest) => (some e, rest)
    | (.ok _, rest) => expectAll fin ks rest

/-- Reads what stands between the parentheses of a statement. -/
def body (fin : Token) (ts : List Token) : Attempt :=
  match (Reading.expect fin .literal ts).result with
  | (.error e, rest) => ⟨{}, some e, rest⟩
  | (.ok literal, rest) =>
    if Reading.startsWith .comma rest then
      match (Reading.arguments fin rest.tail).result with
      | (.error e, rest) => ⟨⟨some literal, none⟩, some e, rest⟩
      | (.ok es, rest) => ⟨⟨some literal, some es⟩, none, rest⟩
    else ⟨⟨some literal, some []⟩, none, rest⟩

/-- Reads a statement, up to the end-of-input token. -/
def statement (fin : Token) (ts : List Token) : Attempt :=
  match expectAll fin [.printf, .lparen] ts with
  | (some e, rest) => ⟨{}, some e, rest⟩
  | (none, rest) =>
    let inner := body fin rest
    match inner.error? with
    | some _ => inner
    | none =>
      let outer := expectAll fin [.rparen, .semicolon, .endOfInput] inner.rest
      { inner with error? := outer.1, rest := outer.2 }

end Attempt

end PrintfLint
