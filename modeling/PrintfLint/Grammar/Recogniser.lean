import PrintfLint.Grammar.Table

/-!
# PrintfLint.Grammar.Recogniser — table-driven recognition

A stack machine that reads terminals and expands nonterminals as a table says.

* `Config` — the stack, with its top first, and the input that is left;
* `Config.step` — what happens to a configuration;
* `Config.run` — a number of steps, and `none` if they do not suffice;
* `Analysis.recognise` — the run on an input, with enough steps for every run that ends.

A nonterminal that is expanded below itself before the same lookahead is expanded so for ever. In a
run that ends, expansions are therefore nested no deeper than there are nonterminals.
-/

namespace PrintfLint

/-- The state of the stack machine. -/
structure Config where
  stack : List String
  input : List String
deriving DecidableEq, Repr

/-- An entry of a trace: what was done, and the state after it. -/
structure TraceStep where
  config : Config
  action : String
deriving DecidableEq, Repr

/-- Why an input is refused. -/
inductive Refusal where
  /-- The terminal on the stack is not the next one of the input. -/
  | mismatch (expected found : String)
  /-- The table has no rule for the nonterminal on the stack. -/
  | noRule (nonterminal lookahead : String)
  /-- The stack is empty before the end mark was read. -/
  | exhausted
deriving DecidableEq, Repr

/-- A refusal in words. -/
def Refusal.message : Refusal → String
  | mismatch e f => "Mismatch: expected '" ++ e ++ "' but found '" ++ f ++ "'"
  | noRule n t => "No rule for M[" ++ n ++ ", " ++ t ++ "]"
  | exhausted => "Unexpected end of parse (stack exhausted)."

/-- The end of a run: a refusal, or none for an input that is accepted; and the trace. -/
structure Recognition where
  refusal? : Option Refusal
  steps : List TraceStep
deriving DecidableEq, Repr

namespace Recognition

/-- Is the input accepted? -/
def accepted (r : Recognition) : Bool :=
  r.refusal?.isNone

end Recognition

/-- What becomes of a configuration. -/
inductive Transition where
  /-- The end mark has been read. -/
  | accept (entry : TraceStep)
  | refuse (r : Refusal)
  | next (entry : TraceStep)
deriving DecidableEq, Repr

/-- One step of the stack machine. Behind the end of the input stands the end mark. -/
def Config.step (nonterminals : List String) (table : Table) (c : Config) : Transition :=
  match c.stack with
  | [] => .refuse .exhausted
  | top :: below =>
    let lookahead := c.input.headD endMark
    if top ∈ nonterminals then
      match table.rule? top lookahead with
      | none => .refuse (.noRule top lookahead)
      | some p =>
        let pushed := if p.isEpsilon then below else p.rhs ++ below
        .next ⟨⟨pushed, c.input⟩, p.render⟩
    else if top = lookahead then
      let entry := ⟨⟨below, c.input.tail⟩, "match " ++ lookahead⟩
      if top = endMark then .accept entry else .next entry
    else .refuse (.mismatch top lookahead)

/-- Runs the stack machine for at most `limit` steps. -/
def Config.run (nonterminals : List String) (table : Table) : Nat → Config → Option Recognition
  | 0, _ => none
  | limit + 1, c =>
    match c.step nonterminals table with
    | .accept entry => some ⟨none, [entry]⟩
    | .refuse r => some ⟨some r, []⟩
    | .next entry =>
      (Config.run nonterminals table limit entry.config).map fun r =>
        { r with steps := entry :: r.steps }

namespace Grammar

/-- The length of the longest right side. -/
def width (g : Grammar) : Nat :=
  (g.productions.map fun p => p.rhs.length).foldl max 0

/-- As many steps as a run that ends can take on an input of a given length. Between two terminals
the stack grows by no more than `n * k` symbols, for `n` nonterminals and right sides of at most `k`
symbols, and each symbol takes fewer than `(k + 2) ^ (n + 1)` steps. -/
def stepLimit (g : Grammar) (length : Nat) : Nat :=
  let n := g.nonterminals.length
  let k := g.width
  (length + 2) * ((length + 2) * (n * k + 3) * (k + 2).pow (n + 1) + 1)

end Grammar

namespace Analysis

/-- The state before the first step: empty symbols are dropped from the input, and the end mark is
put behind it. -/
def initial (a : Analysis) (input : List String) : Config :=
  ⟨[a.grammar.start, endMark], input.filter (· ≠ "") ++ [endMark]⟩

/-- Runs the stack machine on an input; the trace starts with the initial state. The result is
`none` for an input on which it runs for ever. -/
def recognise (a : Analysis) (input : List String) : Option Recognition :=
  let start := a.initial input
  let limit := a.grammar.stepLimit start.input.length
  (Config.run a.grammar.nonterminals a.table limit start).map fun r =>
    { r with steps := ⟨start, "init"⟩ :: r.steps }

end Analysis

end PrintfLint
