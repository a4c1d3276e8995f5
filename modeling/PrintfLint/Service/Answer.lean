import PrintfLint.Grammar.Printf
import PrintfLint.Report
import PrintfLint.Service.Request
import PrintfLint.Service.Settings

/-!
# PrintfLint.Service.Answer — the answers of the service

* `Response` — a body, a refusal of too many lines, or the faults of a request;
* `Route.answer` — the response of each route.

An answer with verdicts says of each how long it took. The times are given, by the numbers of the
lines.
-/

namespace PrintfLint.Service

/-- What the service answers. -/
inductive Response where
  | ok (body : Data)
  | tooManyLines (count : Nat) (limit : Int)
  | invalid (faults : List Fault)

/-- The text of a refusal of too many lines. -/
def tooManyLinesText (count : Nat) (limit : Int) : String :=
  "Too many lines: " ++ toString count ++ " (limit " ++ toString limit ++ ")"

/-- Plain data for a part of a report. -/
def plain (x : Data) : Data :=
  x.truncate Data.defaultLimit

/-! ## Verdicts -/

/-- A token in an answer. -/
def tokenBody (t : Token) : Data :=
  .table [("kind", .text t.kind.name), ("text", .text t.text), ("span", plain t.span.toData)]

/-- A verdict that took the time `elapsed` in an answer. The end of input is not listed among the
tokens. -/
def verdictBody (includeTokens : Bool) (elapsed : Duration) (v : Verdict) : Data :=
  let o := v.outcome
  let tokens := v.tokens.filter fun t => t.kind ≠ .endOfInput
  .table ([
    ("line_number", .int v.number),
    ("line", .text v.line),
    ("valid", .bool o.valid),
    ("reason", .ofOption .text o.reason?),
    ("error_kind", .ofOption (fun k => .text k.name) o.kind?),
    ("hint", .ofOption .text (o.problem?.bind Problem.hint?)),
    ("span", .ofOption (fun s => plain s.toData) (o.problem?.bind Problem.span?)),
    ("specifiers", .ofList (fun s => .text s.text) o.specifiers),
    ("expected_types", .ofList (fun t => .text t.name) o.expectedTypes),
    ("supplied_types", .ofList (fun t => .text t.name) o.suppliedTypes),
    ("duration_ms", elapsed.toData)] ++
    if includeTokens then [("tokens", .ofList tokenBody tokens)] else [])

/-- The answer to a request for verdicts, if the verdict on line `n` takes the time `elapsed n`. -/
def validate (settings : Settings) (elapsed : Int → Duration) (r : ValidateRequest) : Response :=
  let lines := Text.lines r.source
  if settings.maxLines < lines.length then .tooManyLines lines.length settings.maxLines
  else
    let verdicts := Verdict.ofLines (r.options.resolve settings.defaultOptions) lines
    let invalid := Verdict.invalidCount verdicts
    .ok (.table [
      ("line_count", .int verdicts.length),
      ("valid_count", .int (verdicts.length - invalid : Int)),
      ("invalid_count", .int invalid),
      ("all_valid", .bool (invalid = 0)),
      ("results", .ofList (fun v => verdictBody r.includeTokens (elapsed v.number) v) verdicts)])

/-! ## Tokens -/

/-- A fault of a line in an answer. -/
def lexicalBody (e : LexicalError) : Data :=
  .table [
    ("message", .text e.problem.message),
    ("character", .text (String.singleton e.character)),
    ("position", .int e.position),
    ("span", plain e.span.toData)]

/-- The answer to a request for tokens. -/
def tokenize (settings : Settings) (r : TokenizeRequest) : Response :=
  let options := r.options.resolve settings.defaultOptions
  match TokenSeq.ofLine options.toStrictness r.line 1 with
  | .error e => .ok (.table [("ok", .bool false), ("tokens", .seq []), ("error", lexicalBody e)])
  | .ok ts => .ok (.table [
      ("ok", .bool true), ("tokens", .ofList tokenBody ts.toList), ("error", .null)])

/-! ## Table-driven parses -/

/-- The sets of symbols of the nonterminals, each in order. -/
def setsBody (nonterminals : List String) (sets : SymbolSets) : Data :=
  .table (nonterminals.map fun n => (n, .ofList .text (sortSymbols (sets.of n))))

/-- The row of a nonterminal, with an empty text for an empty cell. -/
def rowBody (a : Analysis) (lookaheads : List String) (n : String) : Data :=
  .table (lookaheads.map fun t =>
    (t, .text (((a.table.rule? n t).map Production.render).getD "")))

/-- A trace entry in an answer. The stack is listed from its bottom. -/
def stepBody (s : TraceStep) : Data :=
  .table [
    ("stack", .ofList .text s.config.stack.reverse),
    ("remaining_input", .ofList .text s.config.input),
    ("action", .text s.action)]

/-- The end of a parse in an answer. -/
def recognitionBody (trace : Bool) (r : Recognition) : Data :=
  .table [
    ("accepted", .bool r.accepted),
    ("error", .ofOption (fun e => .text e.message) r.refusal?),
    ("steps", .ofList stepBody (if trace then r.steps else []))]

/-- The answer on a grammar, and on a line if it has tokens. -/
def grammarBody (a : Analysis) (trace : Bool) (line : Except LexicalError TokenSeq) : Data :=
  let nonterminals := sortSymbols a.grammar.nonterminals
  let lookaheads := sortSymbols (endMark :: a.grammar.terminals)
  let result : Data × Data × Data × Data := match line with
    | .error e => (.bool false, lexicalBody e, .null, .null)
    | .ok ts =>
      let input := Token.terminals ts.toList
      (.bool true, .null,
        .table [
          ("terminals", .ofList .text input),
          ("terminals_with_eof", .ofList .text (input ++ [endMark]))],
        .ofOption (recognitionBody trace) (a.recognise input))
  .table [
    ("ok", result.1),
    ("error", result.2.1),
    ("grammar", .table [
      ("start", .text a.grammar.start),
      ("nonterminals", .ofList .text nonterminals),
      ("terminals", .ofList .text lookaheads),
      ("productions", .ofList (fun p => .text p.render) a.grammar.productions)]),
    ("first", setsBody nonterminals a.first),
    ("follow", setsBody nonterminals a.follow),
    ("table", .table (nonterminals.map fun n => (n, rowBody a lookaheads n))),
    ("conflicts", .ofList (fun c => .text c.render) a.conflicts),
    ("input", result.2.2.1),
    ("result", result.2.2.2)]

/-- The answer to a request for a table-driven parse. -/
def parse (r : ParseRequest) : Response :=
  .ok (grammarBody statementAnalysis r.trace (TokenSeq.ofLine {} r.line 1))

/-! ## Routes -/

/-- The routes of the service. -/
inductive Route where
  | index
  | health
  | validate
  | tokenize
  | parse
deriving DecidableEq, Repr

/-- The page at the root of the service. -/
def indexPage : String :=
  "<h2>Printf Validator API</h2><p>POST <code>/api/validate</code> with JSON: " ++
    "<code>\x7b\"source\": \"printf(\\\"%d\\\", 1);\"\x7d</code></p>"

/-- The route at a path. -/
def Route.ofPath? : String → Option Route
  | "/" => some .index
  | "/health" => some .health
  | "/api/validate" => some .validate
  | "/api/tokenize" => some .tokenize
  | "/api/ll1" => some .parse
  | _ => none

/-- Answers a request, or names the faults of its body. -/
def respond {α : Type} (request : Except (List Fault) α) (answer : α → Response) : Response :=
  match request with
  | .ok r => answer r
  | .error fs => .invalid fs

/-- The response of a route to a body; `elapsed` has the times of the verdicts. -/
def Route.answer (settings : Settings) (elapsed : Int → Duration) (body : Body) : Route → Response
  | index => .ok (.text indexPage)
  | health => .ok (.table [("status", .text "ok")])
  | validate => respond (ValidateRequest.read body) (Service.validate settings elapsed)
  | tokenize => respond (TokenizeRequest.read body) (Service.tokenize settings)
  | parse => respond (ParseRequest.read body) Service.parse

end PrintfLint.Service
