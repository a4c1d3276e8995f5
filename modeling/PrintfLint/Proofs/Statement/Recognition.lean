import PrintfLint.Proofs.Grammar.Decision
import PrintfLint.Proofs.Statement.Judgement

/-!
# PrintfLint.Proofs.Statement.Recognition — the readers and the stack machine agree

* `Token.input` — the terminals of tokens, with the end mark behind them;
* `Mirrors` — the machine works off some symbols while the readers come to a rest, or refuses at
  this rest;
* `Reads.mirrors`, `Attempts.mirrors` — the machine does what the readers do;
* `Session.recognise_iff_judge` — both accept the same tokens, and give up at the same one.

When the readers have finished with an operand or an argument, they go on with the rest whatever it
is, while the machine may refuse at once because no rule has such a lookahead. It does so only
before what cannot come next, and there the readers come no further either. This is why `Mirrors`
speaks of the lookaheads that may follow.
-/

namespace PrintfLint

/-! ## Tokens as input of the machine -/

/-- The terminal of a kind of token, operators apart. -/
def Kind.symbol : Kind → String
  | printf => "printf"
  | lparen => "("
  | rparen => ")"
  | semicolon => ";"
  | literal => "str"
  | comma => ","
  | identifier => "id"
  | number => "num"
  | operator => ""
  | directive => "fmt"
  | function => "fn"
  | endOfInput => endMark

theorem Kind.symbol_inj {k l : Kind} : k.symbol = l.symbol ↔ k = l := by
  cases k <;> cases l <;> decide

theorem Kind.symbol_notMem_signs (k : Kind) (l : Precedence) : k.symbol ∉ l.signs := by
  cases k <;> cases l <;> decide

namespace Token

/-- The terminal of a token; the end mark stands for the end of input. -/
def symbol (t : Token) : String :=
  if t.kind = .operator then t.text else t.kind.symbol

/-- What the machine reads for tokens. -/
def input (ts : List Token) : List String :=
  terminals ts ++ [endMark]

/-- The lookahead of the machine. -/
def ahead : List Token → String
  | [] => endMark
  | t :: _ => t.symbol

theorem terminal?_eq {t : Token} (ht : t.kind ≠ .endOfInput) : t.terminal? = some t.symbol := by
  unfold terminal? symbol
  cases hkind : t.kind <;> simp_all [Kind.symbol]

theorem input_cons {t : Token} (ht : t.Regular) (ts : List Token) :
    input (t :: ts) = t.symbol :: input ts := by
  simp [input, terminals, terminal?_eq ht.kind_ne]

theorem headD_input {ts : List Token} (hts : ∀ t ∈ ts, t.Regular) :
    (input ts).headD endMark = ahead ts := by
  cases ts with
  | nil => rfl
  | cons t ts =>
    rw [input_cons (hts t List.mem_cons_self)]
    rfl

theorem length_terminals {ts : List Token} (hts : ∀ t ∈ ts, t.Regular) :
    (terminals ts).length = ts.length := by
  induction ts with
  | nil => rfl
  | cons t ts ih =>
    rcases List.forall_mem_cons.mp hts with ⟨ht, hts⟩
    simpa [terminals, terminal?_eq ht.kind_ne] using ih hts

theorem symbol_of_kind {t : Token} {k : Kind} (ht : t.kind = k) (hk : k ≠ .operator) :
    t.symbol = k.symbol := by
  rw [symbol, ht, if_neg hk]

/-- Different kinds have different terminals. -/
theorem symbol_eq_iff {t : Token} (ht : t.Regular) {k : Kind} (hk : k ≠ .operator) :
    t.symbol = k.symbol ↔ t.kind = k := by
  -- an operator is written as its sign, which is the symbol of no kind
  by_cases hop : t.kind = .operator
  · have hsign : t.text ∈ Precedence.sum.signs ∨ t.text ∈ Precedence.product.signs := by
      simpa [Precedence.signs, or_assoc] using ht.signed hop
    have hne : t.text ≠ k.symbol := by
      rintro heq
      rw [heq] at hsign
      rcases hsign with hsign | hsign <;> exact k.symbol_notMem_signs _ hsign
    rw [symbol, if_pos hop, hop]
    simp [hne, hk.symm]
  · rw [symbol, if_neg hop, Kind.symbol_inj]

theorem symbol_of_isSign {t : Token} {l : Precedence} (ht : t.IsSign l) : t.symbol ∈ l.signs := by
  rw [symbol, if_pos ht.1]
  exact ht.2

theorem isSign_of_symbol {t : Token} {l : Precedence} (h : t.symbol ∈ l.signs) :
    t.IsSign l := by
  by_cases hop : t.kind = .operator
  · rw [symbol, if_pos hop] at h
    exact ⟨hop, h⟩
  · rw [symbol, if_neg hop] at h
    exact absurd h (t.kind.symbol_notMem_signs l)

theorem ahead_ne {ts : List Token} (hts : ∀ t ∈ ts, t.Regular) {k : Kind} (hk : k ≠ .operator)
    (hend : k ≠ .endOfInput) (h : ∀ t ∈ ts.head?, t.kind ≠ k) : ahead ts ≠ k.symbol := by
  cases ts with
  | nil =>
    have hmark : ahead [] = Kind.endOfInput.symbol := rfl
    rw [hmark, Ne, Kind.symbol_inj]
    exact hend.symm
  | cons t ts =>
    intro heq
    exact h t rfl ((symbol_eq_iff (hts t List.mem_cons_self) hk).mp heq)

theorem ahead_notMem_signs {ts : List Token} {l : Precedence}
    (h : ∀ t ∈ ts.head?, l.joins t = false) : ahead ts ∉ l.signs := by
  cases ts with
  | nil => exact Kind.endOfInput.symbol_notMem_signs l
  | cons t ts =>
    intro hmem
    have hnot : l.joins t = false := h t rfl
    rw [(isSign_of_symbol hmem).joins] at hnot
    cases hnot

end Token

/-! ## Runs on tokens -/

/-- The moves of the machine for statements. -/
abbrev Runs (c c' : Config) : Prop :=
  Config.Reaches Grammar.printf.nonterminals statementAnalysis.table c c'

/-- The machine refuses when the given tokens are left. -/
def Refuses (c : Config) (rest : List Token) : Prop :=
  ∃ stack e, Runs c ⟨stack, Token.input rest⟩ ∧
    Config.step Grammar.printf.nonterminals statementAnalysis.table
      ⟨stack, Token.input rest⟩ = .refuse e

/-- The machine works off the symbols while the readers go from some tokens to a rest. Where the
readers fail it refuses at the rest, and so it may do where they do not but nothing of `follow`
comes next. -/
def Mirrors (form follow : List String) (ts : List Token) (ok : Bool) (rest : List Token) : Prop :=
  ∀ below, (ok = true ∧ Runs ⟨form ++ below, Token.input ts⟩ ⟨below, Token.input rest⟩) ∨
    ((ok = true → Token.ahead rest ∉ follow) ∧ Refuses ⟨form ++ below, Token.input ts⟩ rest)

theorem Refuses.of_runs {c c' : Config} {rest : List Token} (h : Runs c c')
    (hc : Refuses c' rest) : Refuses c rest := by
  rcases hc with ⟨stack, e, hruns, hstep⟩
  exact ⟨stack, e, h.trans hruns, hstep⟩

theorem Refuses.of_step {stack : List String} {ts : List Token} {e : Refusal}
    (h : Config.step Grammar.printf.nonterminals statementAnalysis.table
      ⟨stack, Token.input ts⟩ = .refuse e) : Refuses ⟨stack, Token.input ts⟩ ts :=
  ⟨stack, e, .refl, h⟩

namespace Mirrors

variable {form form' follow follow' : List String} {ts mid rest : List Token} {ok : Bool}

/-- Moves that come before do not matter. -/
theorem of_runs (hruns : ∀ below, Runs ⟨form ++ below, Token.input ts⟩
      ⟨form' ++ below, Token.input mid⟩)
    (h : Mirrors form' follow mid ok rest) : Mirrors form follow ts ok rest := by
  intro below
  rcases h below with ⟨hok, hdone⟩ | ⟨hnot, hrefuses⟩
  · exact .inl ⟨hok, (hruns below).trans hdone⟩
  · exact .inr ⟨hnot, hrefuses.of_runs (hruns below)⟩

/-- One symbol after the other. What the machine refuses in between, the readers do not pass
either. -/
theorem seq (h : Mirrors form follow ts true mid) (h' : Mirrors form' follow' mid ok rest)
    (hstop : Token.ahead mid ∉ follow →
      rest = mid ∧ (ok = true → Token.ahead rest ∉ follow')) :
    Mirrors (form ++ form') follow' ts ok rest := by
  intro below
  rw [List.append_assoc]
  rcases h (form' ++ below) with ⟨_, hruns⟩ | ⟨hnot, hrefuses⟩
  · -- what comes first is worked off, and what comes second decides
    rcases h' below with ⟨hok, hdone⟩ | ⟨hnot, hrefuses⟩
    · exact .inl ⟨hok, hruns.trans hdone⟩
    · exact .inr ⟨hnot, hrefuses.of_runs hruns⟩
  · -- the machine is early: the readers have yet to notice, but read nothing more
    rcases hstop (hnot rfl) with ⟨rfl, hfollow⟩
    exact .inr ⟨hfollow, hrefuses⟩

/-- What fails, fails whatever comes after it. -/
theorem fail (h : Mirrors form follow ts false rest) (form' follow' : List String) :
    Mirrors (form ++ form') follow' ts false rest := by
  intro below
  rw [List.append_assoc]
  rcases h (form' ++ below) with ⟨hfalse, _⟩ | ⟨_, hrefuses⟩
  · cases hfalse
  · exact .inr ⟨nofun, hrefuses⟩

theorem nil (ts : List Token) : Mirrors [] follow ts true ts :=
  fun _ => .inl ⟨rfl, .refl⟩

/-- A terminal is read. -/
theorem read {t : Token} (ht : t.Regular) {s : String} (hs : t.symbol = s)
    (hterminal : s ∉ Grammar.printf.nonterminals) (hmark : s ≠ endMark)
    (h : Mirrors form follow ts ok rest) : Mirrors (s :: form) follow (t :: ts) ok rest := by
  apply of_runs _ h
  intro below
  rw [Token.input_cons ht, hs]
  exact .single (.read hterminal hmark)

/-- A terminal is refused. -/
theorem mismatch (hts : ∀ t ∈ ts, t.Regular) {s : String}
    (hterminal : s ∉ Grammar.printf.nonterminals) (hne : Token.ahead ts ≠ s) :
    Mirrors (s :: form) follow ts false ts := by
  intro below
  rw [← Token.headD_input hts] at hne
  exact .inr ⟨nofun, .of_step (Config.step_mismatch hterminal hne.symm)⟩

/-- A nonterminal is expanded. -/
theorem expand (hts : ∀ t ∈ ts, t.Regular) {p : Production} {ss : List String}
    (hp : (p, ss) ∈ Grammar.printfCells) (hahead : Token.ahead ts ∈ ss)
    (hpushed : p.pushed = form) (h : Mirrors form follow ts ok rest) :
    Mirrors [p.lhs] follow ts ok rest := by
  have hn := Grammar.printf_wellFormed.lhs_mem p (Grammar.mem_printfCells.mp hp).1
  apply of_runs _ h
  intro below
  have hrule := rule?_of_mem_printfCells hp hahead
  rw [← Token.headD_input hts] at hrule
  rw [← hpushed]
  exact .single (.expand hn hrule)

/-- A nonterminal is expanded by a rule that starts with the terminal that comes next. -/
theorem start {t : Token} (hts : ∀ u ∈ t :: ts, u.Regular) {n s : String} (hs : t.symbol = s)
    (hplain : s ∉ endMark :: epsilon :: Grammar.printf.nonterminals)
    (hcell : (⟨n, s :: form⟩, [s]) ∈ Grammar.printfCells) (h : Mirrors form follow ts ok rest) :
    Mirrors [n] follow (t :: ts) ok rest := by
  simp only [List.mem_cons, not_or] at hplain
  rcases hplain with ⟨hmark, hepsilon, hterminal⟩
  have hpushed : Production.pushed ⟨n, s :: form⟩ = s :: form := by
    simp [Production.pushed, Production.isEpsilon, hepsilon]
  have hahead : Token.ahead (t :: ts) ∈ [s] := List.mem_singleton.mpr hs
  exact expand hts hcell hahead hpushed (read (hts t List.mem_cons_self) hs hterminal hmark h)

/-- A nonterminal is refused. -/
theorem noRule (hts : ∀ t ∈ ts, t.Regular) {n : String} (hn : n ∈ Grammar.printf.nonterminals)
    (hahead : Token.ahead ts ∉ printfLookaheads n)
    (hfollow : ok = true → Token.ahead ts ∉ follow) :
    Mirrors [n] follow ts ok ts := by
  intro below
  have hrule := rule?_eq_none hahead
  rw [← Token.headD_input hts] at hrule
  exact .inr ⟨hfollow, .of_step (Config.step_noRule hn hrule)⟩

/-- A nonterminal that can vanish does so before what can follow, and is refused otherwise. -/
theorem vanish (hts : ∀ t ∈ ts, t.Regular) {n : String} {ss : List String}
    (hp : (⟨n, [epsilon]⟩, ss) ∈ Grammar.printfCells)
    (hnone : Token.ahead ts ∉ ss → Token.ahead ts ∉ printfLookaheads n) :
    Mirrors [n] ss ts true ts := by
  by_cases hahead : Token.ahead ts ∈ ss
  · have hpushed : Production.pushed ⟨n, [epsilon]⟩ = [] := by
      simp [Production.pushed, Production.isEpsilon]
    exact expand hts hp hahead hpushed (nil ts)
  · have hn := Grammar.printf_wellFormed.lhs_mem _ (Grammar.mem_printfCells.mp hp).1
    exact noRule hts hn (hnone hahead) fun _ => hahead

end Mirrors

/-! ## Expressions -/

namespace Precedence

/-- The nonterminal of a level's chains. -/
def symbol : Precedence → String
  | sum => "expr"
  | product => "term"

/-- The nonterminal of what follows the first operand of a chain. -/
def tailSymbol : Precedence → String
  | sum => "expr_tail"
  | product => "term_tail"

/-- The nonterminal of a level's operands. -/
def operandSymbol : Precedence → String
  | sum => "term"
  | product => "factor"

/-- The terminals that can come after a chain. -/
def follow : Precedence → List String
  | sum => [",", ")"]
  | product => ["-", "+", ",", ")"]

/-- The terminals that can come after an operand. -/
def operandFollow : Precedence → List String
  | sum => ["-", "+", ",", ")"]
  | product => ["/", "*", "-", "+", ",", ")"]

end Precedence

namespace Task

/-- The nonterminal of what a task reads. -/
def symbol : Task → String
  | chain l => l.symbol
  | chainFrom l _ => l.tailSymbol
  | operand l => l.operandSymbol
  | factor => "factor"
  | arguments => "arg_list"
  | argumentsFrom => "arg_tail"

/-- The terminals that can come after it. -/
def follow : Task → List String
  | chain l => l.follow
  | chainFrom l _ => l.follow
  | operand l => l.operandFollow
  | factor => ["/", "*", "-", "+", ",", ")"]
  | arguments => [")"]
  | argumentsFrom => [")"]

end Task

/-- The terminals that a factor can start with. -/
def starters : List String :=
  ["(", "num", "id"]

theorem ahead_mem_starters {t : Token} (ht : t.kind ∈ Expected.operand.kinds)
    (ts : List Token) : Token.ahead (t :: ts) ∈ starters := by
  have hne : t.kind ≠ .operator := by
    intro hop
    rw [hop] at ht
    revert ht
    decide
  rw [Token.ahead, Token.symbol, if_neg hne]
  revert ht
  cases t.kind <;> decide

theorem ahead_notMem_starters {ts : List Token} (hts : ∀ t ∈ ts, t.Regular)
    (h : ∀ t ∈ ts.head?, t.kind ∉ Expected.operand.kinds) : Token.ahead ts ∉ starters := by
  -- operators and the end of input have symbols of their own kind, and none of the three is one of
  -- them
  have hne : ∀ k ∈ Expected.operand.kinds, Token.ahead ts ≠ k.symbol := by
    intro k hk
    have hkind : k ≠ .operator ∧ k ≠ .endOfInput := by
      revert hk
      cases k <;> decide
    apply Token.ahead_ne hts hkind.1 hkind.2
    rintro t ht rfl
    exact h t ht hk
  intro hmem
  have hcases : Token.ahead ts = Kind.lparen.symbol ∨ Token.ahead ts = Kind.number.symbol ∨
      Token.ahead ts = Kind.identifier.symbol := by simpa [starters, Kind.symbol] using hmem
  rcases hcases with heq | heq | heq
  · exact hne .lparen (by decide) heq
  · exact hne .number (by decide) heq
  · exact hne .identifier (by decide) heq

section

variable {follow : List String} {ts mid rest : List Token} {ok : Bool}
  (hts : ∀ t ∈ ts, t.Regular)

include hts

/-- A chain starts with an operand. -/
theorem mirrors_chain (l : Precedence) (hahead : Token.ahead ts ∈ starters)
    (h : Mirrors ([l.operandSymbol] ++ [l.tailSymbol]) follow ts ok rest) :
    Mirrors [l.symbol] follow ts ok rest := by
  cases l with
  | sum =>
    exact .expand (p := ⟨"expr", ["term", "expr_tail"]⟩) hts (by decide) hahead (by decide) h
  | product =>
    exact .expand (p := ⟨"term", ["factor", "term_tail"]⟩) hts (by decide) hahead (by decide) h

theorem mirrors_chain_fail (l : Precedence) (hahead : Token.ahead ts ∉ starters) :
    Mirrors [l.symbol] follow ts false ts := by
  have hlookaheads : printfLookaheads l.symbol = starters := by
    cases l <;> decide
  exact .noRule hts (by cases l <;> decide) (by rwa [hlookaheads]) nofun

/-- A chain ends before what is no operator of its level. -/
theorem mirrors_tail_end (l : Precedence) (hahead : Token.ahead ts ∉ l.signs) :
    Mirrors [l.tailSymbol] l.follow ts true ts := by
  have hlookaheads : ∀ s ∈ printfLookaheads l.tailSymbol, s ∉ l.follow → s ∈ l.signs := by
    cases l <;> decide
  refine .vanish hts (by cases l <;> decide) ?_
  intro hfollow hmem
  exact hahead (hlookaheads _ hmem hfollow)

/-- A chain goes on with an operator of its level. -/
theorem mirrors_tail_join {l : Precedence} {t : Token} (ht : t.Regular) (hsign : t.IsSign l)
    (h : Mirrors ([l.operandSymbol] ++ [l.tailSymbol]) follow ts ok rest) :
    Mirrors [l.tailSymbol] follow (t :: ts) ok rest := by
  have hmem := Token.symbol_of_isSign hsign
  -- the cell is found by evaluation, for each sign of the level
  have hcell : (⟨l.tailSymbol, t.symbol :: ([l.operandSymbol] ++ [l.tailSymbol])⟩,
      [t.symbol]) ∈ Grammar.printfCells := by
    revert hmem
    generalize t.symbol = s
    revert s
    cases l <;> decide
  have hplain : t.symbol ∉ endMark :: epsilon :: Grammar.printf.nonterminals := by
    revert hmem
    generalize t.symbol = s
    revert s
    cases l <;> decide
  exact .start (List.forall_mem_cons.mpr ⟨ht, hts⟩) rfl hplain hcell h

/-- Arguments start with an expression. -/
theorem mirrors_arguments (hahead : Token.ahead ts ∈ starters)
    (h : Mirrors (["expr"] ++ ["arg_tail"]) follow ts ok rest) :
    Mirrors ["arg_list"] follow ts ok rest :=
  .expand (p := ⟨"arg_list", ["expr", "arg_tail"]⟩) hts (by decide) hahead (by decide) h

theorem mirrors_arguments_fail (hahead : Token.ahead ts ∉ starters) :
    Mirrors ["arg_list"] follow ts false ts := by
  have hlookaheads : printfLookaheads "arg_list" = starters := by decide
  exact .noRule hts (by decide) (by rwa [hlookaheads]) nofun

/-- Arguments end before what is no comma. -/
theorem mirrors_arguments_end (hahead : Token.ahead ts ≠ ",") :
    Mirrors ["arg_tail"] [")"] ts true ts := by
  have hlookaheads : ∀ s ∈ printfLookaheads "arg_tail", s ∉ [")"] → s = "," := by decide
  refine .vanish hts (by decide) ?_
  intro hfollow hmem
  exact hahead (hlookaheads _ hmem hfollow)

/-- Arguments go on after a comma. -/
theorem mirrors_comma {t : Token} (ht : t.Regular) (hkind : t.kind = .comma)
    (h : Mirrors (["expr"] ++ ["arg_tail"]) follow ts ok rest) :
    Mirrors ["arg_tail"] follow (t :: ts) ok rest := by
  have hsymbol : t.symbol = "," := Token.symbol_of_kind hkind (by decide)
  exact .start (List.forall_mem_cons.mpr ⟨ht, hts⟩) hsymbol (by decide) (by decide) h

theorem mirrors_factor_fail (hahead : Token.ahead ts ∉ starters) :
    Mirrors ["factor"] follow ts false ts := by
  have hlookaheads : ∀ s ∈ printfLookaheads "factor", s ∈ starters := by decide
  exact .noRule hts (by decide) (fun hmem => hahead (hlookaheads _ hmem)) nofun

theorem mirrors_number {t : Token} (ht : t.Regular) (hkind : t.kind = .number) :
    Mirrors ["factor"] follow (t :: ts) true ts := by
  have hsymbol : t.symbol = "num" := Token.symbol_of_kind hkind (by decide)
  exact .start (List.forall_mem_cons.mpr ⟨ht, hts⟩) hsymbol (by decide) (by decide) (.nil ts)

/-- A factor that starts with a name. -/
theorem mirrors_identifier {t : Token} (ht : t.Regular) (hkind : t.kind = .identifier)
    (h : Mirrors ["call_suffix"] follow ts ok rest) :
    Mirrors ["factor"] follow (t :: ts) ok rest := by
  have hsymbol : t.symbol = "id" := Token.symbol_of_kind hkind (by decide)
  exact .start (List.forall_mem_cons.mpr ⟨ht, hts⟩) hsymbol (by decide) (by decide) h

/-- A name that is not called. -/
theorem mirrors_uncalled (hahead : Token.ahead ts ≠ "(") :
    Mirrors ["call_suffix"] ["/", "*", "-", "+", ",", ")"] ts true ts := by
  have hlookaheads : ∀ s ∈ printfLookaheads "call_suffix",
      s ∉ ["/", "*", "-", "+", ",", ")"] → s = "(" := by decide
  refine .vanish hts (by decide) ?_
  intro hfollow hmem
  exact hahead (hlookaheads _ hmem hfollow)

/-- A name that is called. -/
theorem mirrors_call {o : Token} (ho : o.Regular) (hkind : o.kind = .lparen)
    (h : Mirrors (["call_args"] ++ [")"]) follow ts ok rest) :
    Mirrors ["call_suffix"] follow (o :: ts) ok rest := by
  have hsymbol : o.symbol = "(" := Token.symbol_of_kind hkind (by decide)
  exact .start (List.forall_mem_cons.mpr ⟨ho, hts⟩) hsymbol (by decide) (by decide) h

/-- A call without arguments. -/
theorem mirrors_no_arguments (hahead : Token.ahead ts = ")") :
    Mirrors ["call_args"] [")"] ts true ts := by
  have hmem : Token.ahead ts ∈ [")"] := List.mem_singleton.mpr hahead
  exact .vanish hts (by decide) fun hnot => absurd hmem hnot

/-- A call with arguments. -/
theorem mirrors_call_arguments (hahead : Token.ahead ts ≠ ")")
    (hfail : Token.ahead ts ∉ starters → ok = false ∧ rest = ts)
    (h : Mirrors ["arg_list"] [")"] ts ok rest) : Mirrors ["call_args"] [")"] ts ok rest := by
  by_cases hstart : Token.ahead ts ∈ starters
  · exact .expand (p := ⟨"call_args", ["arg_list"]⟩) hts (by decide) hstart (by decide) h
  · rcases hfail hstart with ⟨rfl, rfl⟩
    have hlookaheads : ∀ s ∈ printfLookaheads "call_args", s ∉ starters → s = ")" := by decide
    exact .noRule hts (by decide) (fun hmem => hahead (hlookaheads _ hmem hstart)) nofun

/-- An expression in parentheses. -/
theorem mirrors_group {o : Token} (ho : o.Regular) (hkind : o.kind = .lparen)
    (h : Mirrors (["expr"] ++ [")"]) follow ts ok rest) :
    Mirrors ["factor"] follow (o :: ts) ok rest := by
  have hsymbol : o.symbol = "(" := Token.symbol_of_kind hkind (by decide)
  exact .start (List.forall_mem_cons.mpr ⟨ho, hts⟩) hsymbol (by decide) (by decide) h

end

section

variable {follow : List String} {ts mid rest : List Token} {ok : Bool}

/-- An operand, and what follows it in a chain. -/
theorem mirrors_then_tail {fin : Token} {l : Precedence} {a : Expr}
    {r : Except GrammarError (List Expr)}
    (hleft : Mirrors [l.operandSymbol] l.operandFollow ts true mid)
    (hmid : ∀ t ∈ mid, t.Regular) (more : Reads fin (.chainFrom l a) mid r rest)
    (hmore : Mirrors [l.tailSymbol] l.follow mid ok rest) :
    Mirrors ([l.operandSymbol] ++ [l.tailSymbol]) l.follow ts ok rest := by
  apply hleft.seq hmore
  intro hstuck
  have hsub : l.follow ⊆ l.operandFollow ∧ l.signs ⊆ l.operandFollow := by
    cases l <;> decide
  -- an operator would not stop the operand, so the chain is at its end
  have hsign : ∀ {t : Token} {us : List Token}, mid = t :: us → l.joins t = true → False := by
    rintro t us rfl hjoin
    have hmem := Token.symbol_of_isSign ((hmid t List.mem_cons_self).signed.isSign hjoin)
    exact hstuck (hsub.2 hmem)
  cases more with
  | chain_end => exact ⟨rfl, fun _ hfollow => hstuck (hsub.1 hfollow)⟩
  | join_error hjoin => exact (hsign rfl hjoin).elim
  | join_from hjoin => exact (hsign rfl hjoin).elim

/-- An expression, and what follows it in a list of arguments. -/
theorem mirrors_then_arguments {fin : Token} {r : Except GrammarError (List Expr)}
    (hfirst : Mirrors ["expr"] [",", ")"] ts true mid)
    (more : Reads fin .argumentsFrom mid r rest)
    (hmore : Mirrors ["arg_tail"] [")"] mid ok rest) :
    Mirrors (["expr"] ++ ["arg_tail"]) [")"] ts ok rest := by
  apply hfirst.seq hmore
  intro hstuck
  -- the machine is stuck at something that a list does not go on with, so the readers are at its
  -- end
  have hcomma : ∀ {t : Token} {us : List Token}, mid = t :: us → t.kind = .comma → False := by
    rintro t us rfl ht
    apply hstuck
    simp [Token.ahead, Token.symbol, Kind.symbol, ht]
  cases more with
  | arguments_end => exact ⟨rfl, fun _ hfollow => hstuck (List.mem_cons_of_mem _ hfollow)⟩
  | comma_error ht => exact (hcomma rfl ht).elim
  | comma_from ht => exact (hcomma rfl ht).elim

/-- What has been opened is closed, or is refused where it ought to be. -/
theorem mirrors_close {n : String} {c : Token} (hc : c.kind = .rparen) (hregular : c.Regular)
    {ss : List String} (hss : ")" ∈ ss) (h : Mirrors [n] ss ts true (c :: rest)) :
    Mirrors ([n] ++ [")"]) follow ts true rest := by
  have hsymbol : c.symbol = ")" := Token.symbol_of_kind hc (by decide)
  have hread : Mirrors [")"] follow (c :: rest) true rest :=
    .read hregular hsymbol (by decide) (by decide) (.nil rest)
  refine h.seq hread ?_
  intro hstuck
  rw [Token.ahead, hsymbol] at hstuck
  exact absurd hss hstuck

theorem mirrors_open {n : String} {ss : List String} (hrest : ∀ t ∈ rest, t.Regular)
    (hc : ∀ c ∈ rest.head?, c.kind ≠ .rparen) (h : Mirrors [n] ss ts true rest) :
    Mirrors ([n] ++ [")"]) follow ts false rest := by
  have hne : Token.ahead rest ≠ ")" := Token.ahead_ne hrest (by decide) (by decide) hc
  have hmismatch : Mirrors [")"] follow rest false rest := .mismatch hrest (by decide) hne
  exact h.seq hmismatch fun _ => ⟨rfl, nofun⟩

end

/-! ## The readers and the machine -/

theorem isOk_map {a : Expr} (r : Except GrammarError (List Expr)) :
    (r.map (a :: ·)).isOk = r.isOk := by
  cases r <;> rfl

theorem Reads.regular {fin : Token} {task : Task} {ts rest : List Token}
    {r : Except GrammarError (List Expr)} (h : Reads fin task ts r rest)
    (hts : ∀ t ∈ ts, t.Regular) : ∀ t ∈ rest, t.Regular :=
  fun t ht => hts t (h.suffix.subset ht)

/-- Where a task fails at once, its error is at the first token. -/
theorem Reads.fail_of_not_starter {fin : Token} {task : Task} {ts rest : List Token}
    {r : Except GrammarError (List Expr)} (h : Reads fin task ts r rest)
    (htask : task.startsFactor = true) (hahead : Token.ahead ts ∉ starters) :
    r.isOk = false ∧ rest = ts := by
  have hne : ∀ t ∈ ts.head?, t.kind ∉ Expected.operand.kinds := by
    cases ts with
    | nil => simp
    | cons t ts =>
      intro u hu
      cases hu
      exact fun hkind => hahead (ahead_mem_starters hkind ts)
  rcases h.of_not_operand htask hne with ⟨⟨e, rfl⟩, rfl⟩
  exact ⟨rfl, rfl⟩

/-- The arguments of a call that is not empty. -/
theorem Reads.mirrors_call_args {fin : Token} {ts rest : List Token}
    {r : Except GrammarError (List Expr)} (h : Reads fin .arguments ts r rest)
    (hts : ∀ t ∈ ts, t.Regular) (hargs : ∀ c ∈ ts.head?, c.kind ≠ .rparen)
    (hmirrors : Mirrors ["arg_list"] [")"] ts r.isOk rest) :
    Mirrors ["call_args"] [")"] ts r.isOk rest := by
  have hne := Token.ahead_ne hts (by decide) (by decide) hargs
  exact mirrors_call_arguments hts hne (fun hnot => h.fail_of_not_starter rfl hnot) hmirrors

/-- The machine does what the readers of expressions do. -/
theorem Reads.mirrors {fin : Token} {task : Task} {ts rest : List Token}
    {r : Except GrammarError (List Expr)} (h : Reads fin task ts r rest)
    (hts : ∀ t ∈ ts, t.Regular) : Mirrors [task.symbol] task.follow ts r.isOk rest := by
  -- each rule of the readers is an expansion; what it reads inside is mirrored by induction
  induction h with
  | @chain_error l ts rest e left ih =>
    by_cases hahead : Token.ahead ts ∈ starters
    · exact mirrors_chain hts l hahead ((ih hts).fail [l.tailSymbol] l.follow)
    · rcases left.fail_of_not_starter rfl hahead with ⟨_, rfl⟩
      exact mirrors_chain_fail hts l hahead
  | @chain_from l ts mid rest a r left more ih ihmore =>
    have hahead : Token.ahead ts ∈ starters := by
      by_contra hnot
      cases (left.fail_of_not_starter rfl hnot).1
    have hmid := left.regular hts
    exact mirrors_chain hts l hahead (mirrors_then_tail (ih hts) hmid more (ihmore hmid))
  | chain_end hstop => exact mirrors_tail_end hts _ (Token.ahead_notMem_signs hstop)
  | @join_error l a t ts rest e hjoin right ih =>
    rcases List.forall_mem_cons.mp hts with ⟨ht, hts⟩
    exact mirrors_tail_join hts ht (ht.signed.isSign hjoin)
      ((ih hts).fail [l.tailSymbol] l.follow)
  | @join_from l a b t ts mid rest r hjoin right more ih ihmore =>
    rcases List.forall_mem_cons.mp hts with ⟨ht, hts⟩
    have hmid := right.regular hts
    exact mirrors_tail_join hts ht (ht.signed.isSign hjoin)
      (mirrors_then_tail (ih hts) hmid more (ihmore hmid))
  | term _ ih => exact ih hts
  | factor _ ih => exact ih hts
  | no_factor hfound => exact mirrors_factor_fail hts (ahead_notMem_starters hts hfound)
  | number ht =>
    rcases List.forall_mem_cons.mp hts with ⟨hregular, hts⟩
    exact mirrors_number hts hregular ht
  | name ht hstop =>
    rcases List.forall_mem_cons.mp hts with ⟨hregular, hts⟩
    have hne := Token.ahead_ne hts (by decide) (by decide) hstop
    exact mirrors_identifier hts hregular ht (mirrors_uncalled hts hne)
  | @call_empty t o c ts ht ho hc =>
    rcases List.forall_mem_cons.mp hts with ⟨htr, hts⟩
    rcases List.forall_mem_cons.mp hts with ⟨hor, hts'⟩
    rcases List.forall_mem_cons.mp hts' with ⟨hcr, hrest⟩
    have hahead : Token.ahead (c :: ts) = ")" := Token.symbol_of_kind hc (by decide)
    have hclose : Mirrors (["call_args"] ++ [")"]) Task.factor.follow (c :: ts) true ts :=
      mirrors_close hc hcr (List.mem_singleton_self _) (mirrors_no_arguments hts' hahead)
    exact mirrors_identifier hts htr ht (mirrors_call hts' hor ho hclose)
  | @call_error t o ts rest e ht ho hargs inner ih =>
    rcases List.forall_mem_cons.mp hts with ⟨htr, hts⟩
    rcases List.forall_mem_cons.mp hts with ⟨hor, hts'⟩
    have hcall := inner.mirrors_call_args hts' hargs (ih hts')
    exact mirrors_identifier hts htr ht
      (mirrors_call hts' hor ho (hcall.fail [")"] Task.factor.follow))
  | @call t o c ts rest es ht ho hargs inner hc ih =>
    rcases List.forall_mem_cons.mp hts with ⟨htr, hts⟩
    rcases List.forall_mem_cons.mp hts with ⟨hor, hts'⟩
    have hcall := inner.mirrors_call_args hts' hargs (ih hts')
    have hcr := inner.regular hts' c List.mem_cons_self
    have hclose : Mirrors (["call_args"] ++ [")"]) Task.factor.follow ts true rest :=
      mirrors_close hc hcr (List.mem_singleton_self _) hcall
    exact mirrors_identifier hts htr ht (mirrors_call hts' hor ho hclose)
  | @call_open t o ts rest es ht ho hargs inner hc ih =>
    rcases List.forall_mem_cons.mp hts with ⟨htr, hts⟩
    rcases List.forall_mem_cons.mp hts with ⟨hor, hts'⟩
    have hcall := inner.mirrors_call_args hts' hargs (ih hts')
    have hopen : Mirrors (["call_args"] ++ [")"]) Task.factor.follow ts false rest :=
      mirrors_open (inner.regular hts') hc hcall
    exact mirrors_identifier hts htr ht (mirrors_call hts' hor ho hopen)
  | @group_error o ts rest e ho inner ih =>
    rcases List.forall_mem_cons.mp hts with ⟨hor, hts⟩
    exact mirrors_group hts hor ho ((ih hts).fail [")"] Task.factor.follow)
  | @group o c ts rest a ho inner hc ih =>
    rcases List.forall_mem_cons.mp hts with ⟨hor, hts⟩
    have hcr := inner.regular hts c List.mem_cons_self
    have hclose : Mirrors (["expr"] ++ [")"]) Task.factor.follow ts true rest :=
      mirrors_close hc hcr (List.mem_cons_of_mem _ (List.mem_singleton_self _)) (ih hts)
    exact mirrors_group hts hor ho hclose
  | @group_open o ts rest a ho inner hc ih =>
    rcases List.forall_mem_cons.mp hts with ⟨hor, hts⟩
    have hopen : Mirrors (["expr"] ++ [")"]) Task.factor.follow ts false rest :=
      mirrors_open (inner.regular hts) hc (ih hts)
    exact mirrors_group hts hor ho hopen
  | @arguments_error ts rest e first ih =>
    by_cases hahead : Token.ahead ts ∈ starters
    · exact mirrors_arguments hts hahead ((ih hts).fail ["arg_tail"] [")"])
    · rcases first.fail_of_not_starter rfl hahead with ⟨_, rfl⟩
      exact mirrors_arguments_fail hts hahead
  | @arguments_from ts mid rest a r first more ih ihmore =>
    have hahead : Token.ahead ts ∈ starters := by
      by_contra hnot
      cases (first.fail_of_not_starter rfl hnot).1
    rw [isOk_map]
    exact mirrors_arguments hts hahead
      (mirrors_then_arguments (ih hts) more (ihmore (first.regular hts)))
  | arguments_end hstop =>
    exact mirrors_arguments_end hts (Token.ahead_ne hts (by decide) (by decide) hstop)
  | @comma_error t ts rest e ht next ih =>
    rcases List.forall_mem_cons.mp hts with ⟨htr, hts⟩
    exact mirrors_comma hts htr ht ((ih hts).fail ["arg_tail"] [")"])
  | @comma_from t ts mid rest a r ht next more ih ihmore =>
    rcases List.forall_mem_cons.mp hts with ⟨htr, hts⟩
    rw [isOk_map]
    exact mirrors_comma hts htr ht
      (mirrors_then_arguments (ih hts) more (ihmore (next.regular hts)))

/-! ## Statements -/

/-- Tokens of given kinds are read, or refused where one is missing. -/
theorem Expects.mirrors {fin : Token} {ks : List Kind} {ts rest : List Token}
    {e : Option GrammarError} (h : Expects fin ks ts e rest) (hts : ∀ t ∈ ts, t.Regular)
    (hks : ∀ k ∈ ks, k ≠ .operator ∧ k ≠ .endOfInput) (follow : List String) :
    Mirrors (ks.map Kind.symbol) follow ts e.isNone rest := by
  -- the symbols of all kinds but the end of input are terminals of the grammar
  have hterminal : ∀ k : Kind, k ≠ .endOfInput →
      k.symbol ∉ Grammar.printf.nonterminals ∧ k.symbol ≠ endMark := by
    intro k
    cases k <;> decide
  induction h with
  | @nil ts => exact .nil ts
  | @cons k ks t ts rest e ht _ ih =>
    rcases List.forall_mem_cons.mp hks with ⟨⟨hop, hend⟩, hks⟩
    rcases List.forall_mem_cons.mp hts with ⟨htr, hts⟩
    exact .read htr (Token.symbol_of_kind ht hop) (hterminal k hend).1 (hterminal k hend).2
      (ih hts hks)
  | @missing k ks ts hne =>
    rcases List.forall_mem_cons.mp hks with ⟨⟨hop, hend⟩, _⟩
    exact .mismatch hts (hterminal k hend).1 (Token.ahead_ne hts hop hend hne)

/-- What stands between the parentheses of a statement. -/
theorem BodyReads.mirrors {fin : Token} {ts : List Token} {a : Attempt} (h : BodyReads fin ts a)
    (hts : ∀ t ∈ ts, t.Regular) : Mirrors ["printf_body"] [")"] ts a.error?.isNone a.rest := by
  -- the literal is read, and decides nothing
  have hliteral : ∀ {t : Token} {us : List Token}, ts = t :: us → t.kind = .literal →
      Mirrors ["body_tail"] [")"] us a.error?.isNone a.rest →
        Mirrors ["printf_body"] [")"] ts a.error?.isNone a.rest := by
    rintro t us rfl ht htail
    have hsymbol : t.symbol = "str" := Token.symbol_of_kind ht (by decide)
    exact .start hts hsymbol (by decide) (by decide) htail
  have hcomma : ∀ {t m : Token} {us : List Token}, ts = t :: m :: us → m.kind = .comma →
      Mirrors ["arg_list"] [")"] us a.error?.isNone a.rest →
        Mirrors ["body_tail"] [")"] (m :: us) a.error?.isNone a.rest := by
    rintro t m us rfl hm hargs
    rcases List.forall_mem_cons.mp hts with ⟨_, hts⟩
    have hsymbol : m.symbol = "," := Token.symbol_of_kind hm (by decide)
    exact .start hts hsymbol (by decide) (by decide) hargs
  cases h with
  | no_literal hne =>
    have hahead := Token.ahead_ne hts (by decide) (by decide) hne
    have hlookaheads : printfLookaheads "printf_body" = [Kind.literal.symbol] := by decide
    exact .noRule hts (by decide) (by simpa [hlookaheads] using hahead) nofun
  | @bare t us ht hstop =>
    rcases List.forall_mem_cons.mp hts with ⟨_, hus⟩
    have hahead := Token.ahead_ne hus (by decide) (by decide) hstop
    have hlookaheads : ∀ s ∈ printfLookaheads "body_tail", s ∉ [")"] → s = Kind.comma.symbol := by
      decide
    refine hliteral rfl ht (.vanish hus (by decide) ?_)
    intro hfollow hmem
    exact hahead (hlookaheads _ hmem hfollow)
  | @arguments_error t m us rest e ht hm inner =>
    exact hliteral rfl ht (hcomma rfl hm (inner.mirrors fun u hu => hts u (by simp [hu])))
  | @supplied t m us rest es ht hm inner =>
    exact hliteral rfl ht (hcomma rfl hm (inner.mirrors fun u hu => hts u (by simp [hu])))

/-- A statement starts with its keyword and a parenthesis. -/
theorem Expects.mirrors_opening {fin : Token} {ts mid rest : List Token} {ok : Bool}
    {follow : List String} (h : Expects fin [.printf, .lparen] ts none mid)
    (hts : ∀ t ∈ ts, t.Regular)
    (hmirrors : Mirrors (["printf_body"] ++ [")", ";"]) follow mid ok rest) :
    Mirrors ["printf_expr"] follow ts ok rest := by
  rcases h.exists_append rfl with ⟨us, rfl, hus⟩
  rcases exists_pair hus with ⟨p, o, rfl, hp, ho⟩
  have hpsymbol : p.symbol = "printf" := Token.symbol_of_kind hp (by decide)
  have hosymbol : o.symbol = "(" := Token.symbol_of_kind ho (by decide)
  rcases List.forall_mem_cons.mp hts with ⟨_, hmid⟩
  have hopened : Mirrors ["(", "printf_body", ")", ";"] follow (o :: mid) ok rest :=
    .read (hmid o List.mem_cons_self) hosymbol (by decide) (by decide) hmirrors
  exact .start hts hpsymbol (by decide) (by decide) hopened

/-- The keyword or the parenthesis is missing. -/
theorem Expects.mirrors_no_opening {fin : Token} {ts rest : List Token} {e : GrammarError}
    {follow : List String} (h : Expects fin [.printf, .lparen] ts (some e) rest)
    (hts : ∀ t ∈ ts, t.Regular) : Mirrors ["printf_expr"] follow ts false rest := by
  cases h with
  | missing hne =>
    have hahead := Token.ahead_ne hts (by decide) (by decide) hne
    have hlookaheads : printfLookaheads "printf_expr" = [Kind.printf.symbol] := by decide
    exact .noRule hts (by decide) (by simpa [hlookaheads] using hahead) nofun
  | @cons k ks p us rest e hp more =>
    rcases List.forall_mem_cons.mp hts with ⟨_, hus⟩
    have hsymbol : p.symbol = "printf" := Token.symbol_of_kind hp (by decide)
    have hrest : Mirrors ["("] [] us false rest := more.mirrors hus (by decide) []
    exact .start hts hsymbol (by decide) (by decide)
      (hrest.fail ["printf_body", ")", ";"] follow)

/-- After the body a statement is closed, or refused where it ought to be. -/
theorem Expects.mirrors_closing {fin : Token} {ts mid rest : List Token}
    {e : Option GrammarError} {follow : List String}
    (h : Expects fin [.rparen, .semicolon] mid e rest) (hmid : ∀ t ∈ mid, t.Regular)
    (hbody : Mirrors ["printf_body"] [")"] ts true mid) :
    Mirrors (["printf_body"] ++ [")", ";"]) follow ts e.isNone rest := by
  refine hbody.seq (h.mirrors hmid (by decide) follow) ?_
  intro hstuck
  -- the machine would not be stuck before the parenthesis, so that is what is missing
  cases h with
  | cons hc =>
    apply absurd _ hstuck
    exact List.mem_singleton.mpr (Token.symbol_of_kind hc (by decide))
  | missing => exact ⟨rfl, nofun⟩

/-- The machine comes to the end mark as the readers do, and is refused as soon as they fail. -/
theorem Attempts.mirrors {fin : Token} {ts : List Token} {a : Attempt} (h : Attempts fin ts a)
    (hts : ∀ t ∈ ts, t.Regular) :
    (a.error? ≠ none ∧ Mirrors ["printf_expr", endMark] [] ts false a.rest) ∨
      (a.error? = none ∧ a.rest = [] ∧ Mirrors ["printf_expr"] [endMark] ts true []) := by
  have hsub : ∀ {us : List Token}, us <:+ ts → ∀ t ∈ us, t.Regular :=
    fun hus t ht => hts t (hus.subset ht)
  have hbody : ∀ {mid : List Token} {inner : Attempt}, Expects fin [.printf, .lparen] ts none mid →
      BodyReads fin mid inner →
        Mirrors ["printf_body"] [")"] mid inner.error?.isNone inner.rest :=
    fun before body => body.mirrors (hsub before.suffix)
  have hclose : ∀ {mid rest : List Token} {inner : Attempt} {e : Option GrammarError},
      Expects fin [.printf, .lparen] ts none mid → BodyReads fin mid inner →
        inner.error? = none → Expects fin [.rparen, .semicolon] inner.rest e rest →
          Mirrors ["printf_expr"] [endMark] ts e.isNone rest := by
    intro mid rest inner e before body hnone after
    have hopen := hbody before body
    rw [hnone] at hopen
    have hmid := hsub (body.suffix.trans before.suffix)
    exact before.mirrors_opening hts (after.mirrors_closing hmid hopen)
  cases h with
  | opening before =>
    have hfail : Mirrors ["printf_expr"] [endMark] ts false _ := before.mirrors_no_opening hts
    exact .inl ⟨by simp, hfail.fail [endMark] []⟩
  | body_error before body he =>
    have hfail := hbody before body
    rw [he] at hfail
    have hfail : Mirrors ["printf_expr"] [endMark] ts false _ :=
      before.mirrors_opening hts (hfail.fail [")", ";"] [endMark])
    exact .inl ⟨by simp [he], hfail.fail [endMark] []⟩
  | closing before body hnone after =>
    exact .inl ⟨by simp, (hclose before body hnone after).fail [endMark] []⟩
  | @trailing mid rest inner t before body hnone after ht =>
    -- the end mark is next on the stack, and a token in the input
    have hrest := hsub (after.suffix.trans (body.suffix.trans before.suffix))
    have hne : Token.ahead (t :: rest) ≠ endMark := by
      intro heq
      have hregular := hrest t List.mem_cons_self
      exact ht ((Token.symbol_eq_iff (k := .endOfInput) hregular (by decide)).mp heq)
    have hmismatch : Mirrors [endMark] [] (t :: rest) false (t :: rest) :=
      .mismatch hrest Grammar.printf_wellFormed.endMark_notMem hne
    exact .inl ⟨by simp, (hclose before body hnone after).seq hmismatch fun _ => ⟨rfl, nofun⟩⟩
  | @done mid rest inner before body hnone after hend =>
    have hrest := hsub (after.suffix.trans (body.suffix.trans before.suffix))
    obtain rfl : rest = [] := by
      cases rest with
      | nil => rfl
      | cons t rest => exact absurd (hend t rfl) (hrest t List.mem_cons_self).kind_ne
    exact .inr ⟨rfl, rfl, hclose before body hnone after⟩

/-! ## Agreement -/

namespace Token

theorem symbol_ne_empty {t : Token} (ht : t.Regular) : t.symbol ≠ "" := by
  by_cases hop : t.kind = .operator
  · have hsigns : "" ∉ ["+", "-", "*", "/"] := by decide
    rw [symbol, if_pos hop]
    rintro heq
    exact hsigns (heq ▸ ht.signed hop)
  · have hempty : "" = Kind.operator.symbol := rfl
    rw [symbol, if_neg hop, hempty, Ne, Kind.symbol_inj]
    exact hop

theorem empty_notMem_terminals {ts : List Token} (hts : ∀ t ∈ ts, t.Regular) :
    "" ∉ terminals ts := by
  rintro hmem
  rcases List.mem_filterMap.mp hmem with ⟨t, ht, hsymbol⟩
  rw [terminal?_eq (hts t ht).kind_ne] at hsymbol
  exact symbol_ne_empty (hts t ht) (Option.some.inj hsymbol)

theorem terminals_toList (s : TokenSeq) : terminals s.toList = terminals s.body := by
  simp [terminals, TokenSeq.toList, terminal?, s.last_kind]

/-- The input from a token on. -/
theorem input_append {ts us : List Token} (hts : ∀ t ∈ ts, t.Regular) :
    input us = (input (ts ++ us)).drop ts.length := by
  have happend : input (ts ++ us) = terminals ts ++ input us := by
    rw [input, terminals, List.filterMap_append, List.append_assoc]
    rfl
  rw [happend, List.drop_left' (length_terminals hts)]

end Token

/-- The recognition of tokens ends before a refusal with the input that is left. -/
theorem recognise_of_refuses {ts rest : List Token} (hts : ∀ t ∈ ts, t.Regular)
    (h : Refuses ⟨["printf_expr"] ++ [endMark], Token.input ts⟩ rest) :
    ∃ r, statementAnalysis.recognise (Token.terminals ts) = some r ∧ r.accepted = false ∧
      ∃ step, r.steps.getLast? = some step ∧ step.config.input = Token.input rest := by
  rcases h with ⟨stack, e, hruns, hstep⟩
  have hstart := Grammar.initial_eq (g := Grammar.printf) (Token.empty_notMem_terminals hts)
  obtain ⟨r, hr, haccepted, hlast⟩ :=
    Analysis.recognise_of_refuse Grammar.printf_wellFormed.marked.rulesOf (hstart ▸ hruns) hstep
  rcases Option.map_eq_some_iff.mp hlast with ⟨step, hstep, hconfig⟩
  exact ⟨r, hr, haccepted, step, hstep, by rw [hconfig]⟩

/-- The recognition accepts what comes to the end mark on both sides. -/
theorem recognise_of_runs {ts : List Token} (hts : ∀ t ∈ ts, t.Regular)
    (h : Runs ⟨["printf_expr"] ++ [endMark], Token.input ts⟩ ⟨[endMark], [endMark]⟩) :
    ∃ r, statementAnalysis.recognise (Token.terminals ts) = some r ∧ r.accepted = true := by
  have hstart := Grammar.initial_eq (g := Grammar.printf) (Token.empty_notMem_terminals hts)
  have hmark := Grammar.printf_wellFormed.endMark_notMem
  exact Analysis.recognise_of_accept Grammar.printf_wellFormed.marked.rulesOf (hstart ▸ h)
    (Config.step_accept hmark rfl)

/-- A statement is accepted, and what is none is refused where the readers stop. -/
theorem Attempts.recognise {fin : Token} {ts : List Token} {a : Attempt} (h : Attempts fin ts a)
    (hts : ∀ t ∈ ts, t.Regular) :
    ∃ r, statementAnalysis.recognise (Token.terminals ts) = some r ∧
      (r.accepted = true ↔ a.error? = none) ∧
      (r.accepted = false →
        ∃ step, r.steps.getLast? = some step ∧ step.config.input = Token.input a.rest) := by
  rcases h.mirrors hts with ⟨herror, hfails⟩ | ⟨hnone, _, hpasses⟩
  · -- the readers fail, and the machine refuses with the same input left
    rcases hfails [] with ⟨hfalse, _⟩ | ⟨_, hrefuses⟩
    · cases hfalse
    · rcases recognise_of_refuses hts hrefuses with ⟨r, hr, haccepted, hlast⟩
      exact ⟨r, hr, by simp [haccepted, herror], fun _ => hlast⟩
  · -- the readers come to the end mark, which the machine accepts
    rcases hpasses [endMark] with ⟨_, hruns⟩ | ⟨hnot, _⟩
    · rcases recognise_of_runs hts hruns with ⟨r, hr, haccepted⟩
      exact ⟨r, hr, by simp [haccepted, hnone], by simp [haccepted]⟩
    · exact absurd (List.mem_singleton_self endMark) (hnot rfl)

/-- The machine and the readers agree, whatever was read before. The recognition of a token sequence
ends, and accepts unless the judgement finds a problem of the grammar. If it refuses, it has matched
the terminals of the tokens before the one at fault, and no more. -/
theorem Session.recognise_iff_judge (p : Session) (hbody : ∀ t ∈ p.tokens.body, t.Regular) :
    ∃ r, statementAnalysis.recognise (Token.terminals p.tokens.toList) = some r ∧
      (r.accepted = true ↔ p.judge.1.kind? ≠ some .grammar) ∧
      (r.accepted = false → ∃ t step,
        p.tokens.toList[p.judge.2.index]? = some t ∧
        p.judge.1.problem?.bind Problem.span? = some t.span ∧
        r.steps.getLast? = some step ∧
        step.config.input =
          (Token.terminals p.tokens.toList ++ [endMark]).drop p.judge.2.index ∧
        step.config.input.length =
          (Token.terminals p.tokens.toList).length + 1 - p.judge.2.index) := by
  -- the judgement starts from the first token, wherever the session stood
  have hattempts : Attempts p.tokens.last p.tokens.body p.tokens.attempt :=
    Attempt.attempts_statement p.tokens.last_kind p.tokens.body
  rcases hattempts.recognise hbody with ⟨r, hr, haccepted, hrefused⟩
  have hkind : p.judge.1.kind? = some .grammar ↔ p.tokens.attempt.error? ≠ none :=
    Attempt.kind?_eq_grammar_iff _ _
  rw [Token.terminals_toList]
  refine ⟨r, hr, by rw [haccepted, Ne, hkind, not_not], ?_⟩
  intro hfalse
  rcases hrefused hfalse with ⟨step, hstep, hinput⟩
  have herror : p.tokens.attempt.error? ≠ none := by
    intro hnone
    rw [haccepted.mpr hnone] at hfalse
    cases hfalse
  rcases Option.ne_none_iff_exists'.mp herror with ⟨e, he⟩
  rcases hattempts.suffix with ⟨before, hbefore⟩
  have hindex := p.index_judge hbefore
  -- what the machine has left is what the readers have left, as terminals
  have hdrop : Token.input p.tokens.attempt.rest =
      (Token.input p.tokens.body).drop p.judge.2.index := by
    rw [hindex, ← hbefore]
    exact Token.input_append fun t ht => hbody t (hbefore ▸ List.mem_append_left _ ht)
  refine ⟨e.found, step, ?_, ?_, hstep, hinput.trans hdrop, ?_⟩
  · -- the token at fault is the first that is left, or the last one of all
    rw [hattempts.found_eq he, hindex, TokenSeq.toList, ← hbefore, List.append_assoc,
      List.getElem?_append_right (Nat.le_refl _), Nat.sub_self]
    cases p.tokens.attempt.rest <;> rfl
  · have hproblem : p.judge.1.problem? = some e.problem := by
      simp [judge, Attempt.outcome, he]
    rw [hproblem]
    rfl
  · rw [hinput, hdrop, List.length_drop, Token.input, List.length_append, List.length_singleton]

/-- The tokens of `printf(sin`, where the name is a token of a kind that no line contains. -/
def misplacedFunction : TokenSeq where
  body := [⟨.printf, "printf", ⟨.ofIndex 1 0, .ofIndex 1 6⟩⟩,
    ⟨.lparen, "(", ⟨.ofIndex 1 6, .ofIndex 1 7⟩⟩,
    ⟨.function, "sin", ⟨.ofIndex 1 7, .ofIndex 1 10⟩⟩]
  last := ⟨.endOfInput, "", ⟨.ofIndex 1 10, .ofIndex 1 10⟩⟩
  last_kind := rfl

/-- The machine gives up at the third of these tokens, as the readers do. -/
theorem Session.recognise_misplacedFunction :
    (∀ t ∈ misplacedFunction.body, t.Regular) ∧
      ∃ r step, statementAnalysis.recognise ["printf", "(", "fn"] = some r ∧
        r.accepted = false ∧ r.steps.getLast? = some step ∧
        step.config.input = ["fn", endMark] := by
  have hbody : ∀ t ∈ misplacedFunction.body, t.Regular := by
    intro t ht
    have hkind : t.kind ≠ .endOfInput ∧ t.kind ≠ .operator := by
      revert t
      decide
    exact ⟨hkind.1, fun hop => absurd hop hkind.2⟩
  rcases (start true misplacedFunction).recognise_iff_judge hbody with ⟨r, hr, haccepted, hlast⟩
  have hgrammar : (start true misplacedFunction).judge.1.kind? = some .grammar := by decide
  have hindex : (start true misplacedFunction).judge.2.index = 2 := by decide
  have hrefused : r.accepted = false := by
    rw [Bool.eq_false_iff, Ne, haccepted, not_not]
    exact hgrammar
  rcases hlast hrefused with ⟨_, step, _, _, hstep, hinput, _⟩
  rw [hindex] at hinput
  exact ⟨hbody, r, step, hr, hrefused, hstep, hinput⟩

end PrintfLint
