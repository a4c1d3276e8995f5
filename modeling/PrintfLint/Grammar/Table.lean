import PrintfLint.Grammar.Follow

/-!
# PrintfLint.Grammar.Table — the table of a predictive parser

* `Grammar.predict` — the lookaheads that ask for a rule;
* `Table` — the rule to use for a nonterminal before a lookahead;
* `Conflict` — a rule that finds its cell taken;
* `Analysis` — a grammar with its sets, its table and its conflicts.

The first rule of a cell stays in it. A grammar without conflicts is LL(1).
-/

namespace PrintfLint

/-- The rule to use for a nonterminal before a lookahead. -/
structure Cell where
  nonterminal : String
  lookahead : String
  production : Production
deriving DecidableEq, Repr

/-- The cells of a parse table, in the order in which they were filled. -/
abbrev Table := List Cell

namespace Table

/-- The rule in a cell. -/
def rule? (table : Table) (n lookahead : String) : Option Production :=
  (table.find? fun c => c.nonterminal = n ∧ c.lookahead = lookahead).map Cell.production

/-- The cells of a nonterminal. -/
def row (table : Table) (n : String) : List (String × Production) :=
  (table.filter fun c => c.nonterminal = n).map fun c => (c.lookahead, c.production)

end Table

/-- Two rules of one nonterminal that the same lookahead asks for. -/
structure Conflict where
  nonterminal : String
  lookahead : String
  kept : Production
  refused : Production
deriving DecidableEq, Repr

/-- A conflict in words. -/
def Conflict.render (c : Conflict) : String :=
  "Conflict at M[" ++ c.nonterminal ++ ", " ++ c.lookahead ++ "]: " ++ c.kept.render ++ " vs " ++
    c.refused.render

/-- A table under construction, and the conflicts met so far. -/
structure Filling where
  table : Table := []
  conflicts : List Conflict := []

namespace Filling

/-- Puts a rule into the cell of its nonterminal before a lookahead. A different rule that is there
stays, and the conflict is noted. -/
def place (f : Filling) (p : Production) (lookahead : String) : Filling :=
  match f.table.rule? p.lhs lookahead with
  | none => { f with table := f.table ++ [⟨p.lhs, lookahead, p⟩] }
  | some kept =>
    if kept = p then f
    else { f with conflicts := f.conflicts ++ [⟨p.lhs, lookahead, kept, p⟩] }

end Filling

namespace Grammar

/-- The lookaheads that ask for a rule: those its right side can start with, and if it can vanish
those that can come after its left side; each group in order. -/
def predict (g : Grammar) (first follow : SymbolSets) (p : Production) : List String :=
  let own := firstOf g.nonterminals first p.rhs
  sortSymbols (own.filter fun t => t ≠ epsilon) ++
    if epsilon ∈ own then sortSymbols (follow.of p.lhs) else []

/-- The table of a grammar, with its conflicts. -/
def fill (g : Grammar) (first follow : SymbolSets) : Filling :=
  g.productions.foldl (fun f p => (g.predict first follow p).foldl (fun f t => f.place p t) f) {}

end Grammar

/-- All that is computed from a grammar. -/
structure Analysis where
  grammar : Grammar
  first : SymbolSets
  follow : SymbolSets
  table : Table
  conflicts : List Conflict

namespace Analysis

/-- Does every nonterminal have at most one rule for each lookahead? -/
def isLL1 (a : Analysis) : Bool :=
  a.conflicts.isEmpty

end Analysis

namespace Grammar

/-- The analysis of a grammar whose left sides and start symbol are nonterminals. -/
def analyse (g : Grammar) : Analysis :=
  let first := g.first
  let follow := g.follow first
  let filling := g.fill first follow
  ⟨g, first, follow, filling.table, filling.conflicts⟩

/-- The analysis of a grammar, or a symbol that ought to be a nonterminal. -/
def analyse? (g : Grammar) : Except String Analysis :=
  match g.undeclared? with
  | some s => .error s
  | none => .ok g.analyse

end Grammar

end PrintfLint
