import PrintfLint.Grammar

/-!
# PrintfLint.Grammar.First — the symbols a string can start with

* `firstOf` — FIRST of a string of symbols, from the sets of the nonterminals;
* `Grammar.first` — the FIRST sets of a grammar, as the least sets that its rules ask for.
-/

namespace PrintfLint

/-- FIRST of a string of symbols. It holds `ε` only if every symbol can vanish. A nonterminal whose
set is missing starts with nothing. -/
def firstOf (nonterminals : List String) (first : SymbolSets) : List String → List String
  | [] => [epsilon]
  | s :: rest =>
    if s = epsilon then firstOf nonterminals first rest
    else if s ∈ nonterminals then
      let own := (first.of s).filter fun t => t ≠ epsilon
      if epsilon ∈ first.of s then unite own (firstOf nonterminals first rest) else own
    else [s]

namespace Grammar

/-- What a rule adds to the FIRST sets. -/
def extendFirst (g : Grammar) (first : SymbolSets) (p : Production) : SymbolSets :=
  first.add p.lhs (firstOf g.nonterminals first p.rhs)

/-- What all rules add, one after the other. -/
def roundFirst (g : Grammar) (first : SymbolSets) : SymbolSets :=
  g.productions.foldl g.extendFirst first

/-- The FIRST sets of a grammar. -/
def first (g : Grammar) : SymbolSets :=
  settle g.roundFirst g.growth (.empty g.nonterminals)

end Grammar

end PrintfLint
