import PrintfLint.Outcome

/-!
# PrintfLint.Session — reading a token sequence in steps

A session stands before a token of a sequence, keeps the directives and arguments that were found
last, and carries out one command after the other.

* `Session` — the state;
* `Session.Command`, `Session.Reply` — what a session is told and what it answers;
* `Session.perform` — one command.

A judgement of the whole sequence forgets all that came before it; the other commands do not.
-/

namespace PrintfLint

/-- A place in a token sequence, and what has been found. -/
structure Session where
  tokens : TokenSeq
  propagate : Bool
  index : Nat
  specifiers : List Specifier
  arguments : List Argument

namespace Session

/-- What a session is told. -/
inductive Command where
  /-- Judge the whole sequence, from its start. -/
  | judge
  /-- Read a statement. -/
  | statement
  /-- Read what stands between the parentheses of a statement. -/
  | body
  /-- Compare directives with arguments. -/
  | check
  /-- Read arguments. -/
  | arguments
  /-- Read an expression. -/
  | expression
  /-- Read a term. -/
  | term
  /-- Read a factor. -/
  | factor
  /-- Read a token of a kind. -/
  | expect (k : Kind)
  /-- Is the next token of a kind? -/
  | looksAt (k : Kind)
  /-- Look at the next token. -/
  | current
  /-- Step over the next token, unless it is the end of input. -/
  | advance
  | seek (index : Nat)
  | setPropagate (propagate : Bool)
  /-- Take the directives of a literal. -/
  | setSpecifiers (literal : String)
  /-- Read arguments and keep them. -/
  | keepArguments
deriving DecidableEq, Repr

/-- What a session answers. -/
inductive Reply where
  | outcome (o : Outcome)
  | arguments (as : List Argument)
  | argument (a : Argument)
  | token (t : Token)
  | flag (b : Bool)
  | done
deriving DecidableEq, Repr

/-- A session at the start of a sequence. -/
def start (propagate : Bool) (tokens : TokenSeq) : Session :=
  ⟨tokens, propagate, 0, [], []⟩

/-- The tokens from the session's place on, without the last one of the sequence. -/
def rest (s : Session) : List Token :=
  s.tokens.body.drop s.index

/-- The next token; behind the end it is the last one. -/
def current (s : Session) : Token :=
  s.rest.headD s.tokens.last

/-- The session before the given tokens, which are left of its own. -/
def moveTo (s : Session) (left : List Token) : Session :=
  { s with index := s.index + (s.rest.length - left.length) }

/-- The session after an attempt from its place. -/
def adopt (s : Session) (a : Attempt) : Session :=
  { s.moveTo a.rest with
    specifiers := a.draft.specifiers s.specifiers
    arguments := a.draft.typedArguments s.propagate s.arguments }

/-- The answer to an attempt. -/
def settle (s : Session) (a : Attempt) : Except Problem Reply × Session :=
  match a.error? with
  | some e => (.error e.problem, s.adopt a)
  | none => (.ok .done, s.adopt a)

/-- The answer to a reading. -/
def report {α : Type} {n : Nat} (s : Session) (r : Reading α n) (reply : α → Reply) :
    Except Problem Reply × Session :=
  match r.result with
  | (.ok a, left) => (.ok (reply a), s.moveTo left)
  | (.error e, left) => (.error e.problem, s.moveTo left)

/-- The answer to the reading of an expression. -/
def reportExpr {n : Nat} (s : Session) (r : Reading Expr n) : Except Problem Reply × Session :=
  s.report r fun e => .argument (e.argument s.propagate)

/-- The arguments that expressions make. -/
def typed (s : Session) (es : List Expr) : List Argument :=
  es.map (Expr.argument s.propagate)

/-- Judges the whole sequence. -/
def judge (s : Session) : Outcome × Session :=
  let fresh := start s.propagate s.tokens
  let a := s.tokens.attempt
  (a.outcome s.propagate, fresh.adopt a)

/-- Carries out a command. -/
def perform (s : Session) : Command → Except Problem Reply × Session
  | .judge =>
    let r := s.judge
    (.ok (.outcome r.1), r.2)
  | .statement => s.settle (.statement s.tokens.last s.rest)
  | .body => s.settle (.body s.tokens.last s.rest)
  | .check =>
    match argumentProblem? s.specifiers s.arguments with
    | some p => (.error p, s)
    | none => (.ok .done, s)
  | .arguments => s.report (Reading.arguments s.tokens.last s.rest) fun es =>
      .arguments (s.typed es)
  | .expression => s.reportExpr (Reading.chain s.tokens.last .sum s.rest)
  | .term => s.reportExpr (Reading.chain s.tokens.last .product s.rest)
  | .factor => s.reportExpr (Reading.factor s.tokens.last s.rest)
  | .expect k => s.report (Reading.expect s.tokens.last k s.rest) .token
  | .looksAt k => (.ok (.flag (s.current.kind = k)), s)
  | .current => (.ok (.token s.current), s)
  | .advance => (.ok (.token s.current), s.moveTo (Reading.pass s.rest))
  | .seek index => (.ok .done, { s with index := index })
  | .setPropagate propagate => (.ok .done, { s with propagate := propagate })
  | .setSpecifiers literal =>
    (.ok .done, { s with specifiers := Specifier.extract literal })
  | .keepArguments =>
    match (Reading.arguments s.tokens.last s.rest).result with
    | (.ok es, left) => (.ok .done, { s.moveTo left with arguments := s.typed es })
    | (.error e, left) => (.error e.problem, s.moveTo left)

end Session

end PrintfLint
