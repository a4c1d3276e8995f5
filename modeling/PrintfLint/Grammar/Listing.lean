import PrintfLint.Grammar.Printf
import PrintfLint.Text.Quoted
import PrintfLint.Token.Scan

/-!
# PrintfLint.Grammar.Listing — the grammar and its parses in print

`Grammar.listing` prints the grammar of statements, its FIRST and FOLLOW sets, the filled cells of
its table and its conflicts, and then a traced parse for each of some lines. The empty string is
written `eps`.
-/

namespace PrintfLint.Grammar

/-- Writes the symbol for the empty string in plain letters. -/
def plain (s : String) : String :=
  s.replace epsilon "eps"

/-- The lines that are parsed when none are given. -/
def sampleLines : List String :=
  ["printf(\"%d + %f\", 1, 2.5 * x);", "printf(\"%s\", name(1, 2));", "printf \"hi\");"]

/-- A nonterminal with its set of symbols. -/
def listSet (sets : SymbolSets) (symbol : String → String) (n : String) : String :=
  n ++ ": " ++ Text.quoteList (sortSymbols ((sets.of n).map symbol))

/-- The filled cells of a nonterminal, in order of the lookaheads. -/
def listRow (table : Table) (n : String) : List String :=
  (sortSymbols ((table.row n).map Prod.fst)).filterMap fun t =>
    (table.rule? n t).map fun p => "M[" ++ n ++ ", " ++ t ++ "] = " ++ plain p.render

/-- The sets, the table and the conflicts of a grammar. -/
def listAnalysis (a : Analysis) : List String :=
  let names := sortSymbols a.grammar.nonterminals
  ["=== GRAMMAR ==="] ++ a.grammar.productions.map (fun p => plain p.render) ++
    ["", "=== FIRST ==="] ++ names.map (listSet a.first plain) ++
    ["", "=== FOLLOW ==="] ++ names.map (listSet a.follow id) ++
    ["", "=== LL(1) TABLE (non-empty cells) ==="] ++ names.flatMap (listRow a.table) ++
    ["", "=== Conflicts ==="] ++
    [if a.conflicts.isEmpty then "none" else Text.quoteList (a.conflicts.map Conflict.render)]

/-- An entry of a trace. -/
def listStep (s : TraceStep) : String :=
  "STACK: " ++ " ".intercalate s.config.stack.reverse ++ " | IN: " ++
    " ".intercalate s.config.input ++ " | ACT: " ++ plain s.action

/-- The end of a parse, and how it came to it. -/
def listRecognition (r : Recognition) : List String :=
  ["accepted: " ++ if r.accepted then "True" else "False",
    "error: " ++ (r.refusal?.map Refusal.message).getD "None",
    "steps: " ++ toString r.steps.length] ++ r.steps.map listStep

/-- The parse of a line; a parse without end has no text. -/
def listParse (a : Analysis) (line : String) : List String :=
  ["", "=== Parse: " ++ line ++ " ==="] ++
    match TokenSeq.ofLine {} line 1 with
    | .error e => ["lexical error: " ++ e.problem.message]
    | .ok ts =>
      match a.recognise (Token.terminals ts.toList) with
      | none => []
      | some r => listRecognition r

/-- The grammar of statements in print, and the parses of some lines. -/
def listing (lines : List String) : String :=
  let shown := if lines.isEmpty then sampleLines else lines
  let rows := listAnalysis statementAnalysis ++ shown.flatMap (listParse statementAnalysis) ++
    ["", "(EOF symbol is: " ++ endMark ++ " )"]
  String.join (rows.map fun r => r ++ "\n")

end PrintfLint.Grammar
