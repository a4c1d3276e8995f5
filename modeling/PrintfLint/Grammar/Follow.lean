import PrintfLint.Grammar.First

/-!
# PrintfLint.Grammar.Follow — the symbols that can come after a nonterminal

`Grammar.follow` computes the FOLLOW sets from the FIRST sets: the end mark comes after the start
symbol; what can start the rest of a right side comes after the nonterminal before it; and where
that rest can vanish, so does all that comes after the left side.
-/

namespace PrintfLint.Grammar

/-- What a right side adds to the FOLLOW sets, from some place in it on. -/
def extendFollow (g : Grammar) (first : SymbolSets) (lhs : String) :
    List String → SymbolSets → SymbolSets
  | [], follow => follow
  | s :: rest, follow =>
    if s ∈ g.nonterminals then
      let next := firstOf g.nonterminals first rest
      let own := next.filter fun t => t ≠ epsilon
      let all := if epsilon ∈ next then unite own (follow.of lhs) else own
      extendFollow g first lhs rest (follow.add s all)
    else extendFollow g first lhs rest follow

/-- What all rules add, one after the other. -/
def roundFollow (g : Grammar) (first : SymbolSets) (follow : SymbolSets) : SymbolSets :=
  g.productions.foldl (fun follow p => g.extendFollow first p.lhs p.rhs follow) follow

/-- The FOLLOW sets of a grammar. -/
def follow (g : Grammar) (first : SymbolSets) : SymbolSets :=
  settle (g.roundFollow first) g.growth
    ((SymbolSets.empty g.nonterminals).add g.start [endMark])

end PrintfLint.Grammar
