/-!
# PrintfLint.Grammar — context-free grammars

* `Production`, `Grammar` — a grammar over symbols that are strings;
* `epsilon`, `endMark` — the two symbols with a meaning of their own;
* `SymbolSets` — a set of symbols for each nonterminal.

`ε` in a right side stands for the empty string when sets are computed, and `$` for the end of the
input. Nothing keeps a grammar from using either as an ordinary symbol.
-/

namespace PrintfLint

/-- The symbol for the empty string. -/
def epsilon : String := "ε"

/-- The symbol for the end of the input. -/
def endMark : String := "$"

/-- A rule that replaces a nonterminal by a string of symbols. -/
structure Production where
  lhs : String
  rhs : List String
deriving DecidableEq, Repr

namespace Production

/-- Does the rule write the empty string? -/
def isEpsilon (p : Production) : Bool :=
  p.rhs = [] || p.rhs = [epsilon]

/-- A rule in the usual notation. -/
def render (p : Production) : String :=
  p.lhs ++ " -> " ++ if p.isEpsilon then epsilon else " ".intercalate p.rhs

end Production

/-- A grammar: its start symbol, its nonterminals and its rules. -/
structure Grammar where
  start : String
  nonterminals : List String
  productions : List Production
deriving DecidableEq, Repr

/-! ## Sets of symbols -/

/-- Sorts symbols by code points and drops repetitions. -/
def sortSymbols (symbols : List String) : List String :=
  (symbols.eraseDups).mergeSort fun a b => decide (a ≤ b)

/-- The symbols of two sets; those of the second that the first has too are not repeated. -/
def unite (a b : List String) : List String :=
  a.foldr List.insert b

theorem mem_unite {a b : List String} {s : String} : s ∈ unite a b ↔ s ∈ a ∨ s ∈ b := by
  induction a with
  | nil => simp [unite]
  | cons t ts ih =>
    simp only [unite, List.foldr_cons, List.mem_insert_iff, List.mem_cons] at ih ⊢
    rw [ih, or_assoc]

/-- A set of symbols for each of some nonterminals. -/
abbrev SymbolSets := List (String × List String)

namespace SymbolSets

/-- No symbols for any of the nonterminals. -/
def empty (nonterminals : List String) : SymbolSets :=
  nonterminals.map fun n => (n, [])

/-- The symbols for a nonterminal; none if the nonterminal is missing. -/
def of (sets : SymbolSets) (n : String) : List String :=
  (sets.lookup n).getD []

/-- Puts symbols into the set of a nonterminal. -/
def add (sets : SymbolSets) (n : String) (symbols : List String) : SymbolSets :=
  sets.map fun (m, old) => if m = n then (m, unite symbols old) else (m, old)

end SymbolSets

/-- Repeats a step until it changes nothing, at most `bound` times. -/
def settle {α : Type} [DecidableEq α] (step : α → α) : Nat → α → α
  | 0, a => a
  | bound + 1, a => if step a = a then a else settle step bound (step a)

namespace Grammar

/-- All symbols of right sides that are neither nonterminals nor the empty string. -/
def terminals (g : Grammar) : List String :=
  (g.productions.flatMap Production.rhs).filter fun s => s ≠ epsilon ∧ s ∉ g.nonterminals

/-- A symbol that has to be a nonterminal and is not: the left side of a rule, or else the start
symbol. -/
def undeclared? (g : Grammar) : Option String :=
  ((g.productions.map Production.lhs) ++ [g.start]).find? fun s => s ∉ g.nonterminals

/-- How many times sets that belong to the nonterminals can grow: each of them by each symbol of a
right side and by the two special symbols. -/
def growth (g : Grammar) : Nat :=
  g.nonterminals.length * ((g.productions.flatMap Production.rhs).length + 2) + 1

end Grammar

end PrintfLint
