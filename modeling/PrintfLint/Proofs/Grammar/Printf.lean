import PrintfLint.Grammar.Printf
import PrintfLint.Proofs.Grammar.Table

/-!
# PrintfLint.Proofs.Grammar.Printf — the grammar of statements is LL(1)

* `printf_wellFormed` — the grammar is of the form that the general theory asks for;
* `printfCells` — its rules, each with the lookaheads that ask for it;
* `statementAnalysis_conflicts` — no lookahead asks for two rules of one nonterminal;
* `rule?_of_mem_printfCells`, `rule?_eq_none` — the cells of the table.

The sets are evaluated here once. What is proved about runs on the grammar looks cells up in
`printfCells`, and never computes the table.
-/

namespace PrintfLint

namespace Grammar

theorem printf_wellFormed : printf.WellFormed where
  lhs_mem := by decide
  epsilon_notMem := by decide
  start_mem := by decide
  endMark_notMem := by decide
  endMark_notMem_rhs := by decide
  empty_notMem_rhs := by decide
  epsilon_alone := by decide

/-- The rules of the grammar of statements, with the lookaheads that ask for them. -/
def printfCells : List (Production × List String) := [
  (⟨"printf_expr", ["printf", "(", "printf_body", ")", ";"]⟩, ["printf"]),
  (⟨"printf_body", ["str", "body_tail"]⟩, ["str"]),
  (⟨"body_tail", [",", "arg_list"]⟩, [","]),
  (⟨"body_tail", [epsilon]⟩, [")"]),
  (⟨"arg_list", ["expr", "arg_tail"]⟩, ["(", "num", "id"]),
  (⟨"arg_tail", [",", "expr", "arg_tail"]⟩, [","]),
  (⟨"arg_tail", [epsilon]⟩, [")"]),
  (⟨"expr", ["term", "expr_tail"]⟩, ["(", "num", "id"]),
  (⟨"expr_tail", ["+", "term", "expr_tail"]⟩, ["+"]),
  (⟨"expr_tail", ["-", "term", "expr_tail"]⟩, ["-"]),
  (⟨"expr_tail", [epsilon]⟩, [",", ")"]),
  (⟨"term", ["factor", "term_tail"]⟩, ["(", "num", "id"]),
  (⟨"term_tail", ["*", "factor", "term_tail"]⟩, ["*"]),
  (⟨"term_tail", ["/", "factor", "term_tail"]⟩, ["/"]),
  (⟨"term_tail", [epsilon]⟩, ["-", "+", ",", ")"]),
  (⟨"factor", ["id", "call_suffix"]⟩, ["id"]),
  (⟨"factor", ["num"]⟩, ["num"]),
  (⟨"factor", ["(", "expr", ")"]⟩, ["("]),
  (⟨"call_suffix", ["(", "call_args", ")"]⟩, ["("]),
  (⟨"call_suffix", [epsilon]⟩, ["/", "*", "-", "+", ",", ")"]),
  (⟨"call_args", ["arg_list"]⟩, ["(", "num", "id"]),
  (⟨"call_args", [epsilon]⟩, [")"])]

theorem printfCells_eq : printfCells = printf.productions.map fun p =>
    (p, printf.successors printf.first p.lhs p.rhs printf.follows) := by
  decide +kernel

theorem mem_printfCells {p : Production} {ts : List String} :
    (p, ts) ∈ printfCells ↔
      p ∈ printf.productions ∧ printf.successors printf.first p.lhs p.rhs printf.follows = ts := by
  rw [printfCells_eq, List.mem_map]
  constructor
  · rintro ⟨q, hq, heq⟩
    cases heq
    exact ⟨hq, rfl⟩
  · rintro ⟨hp, rfl⟩
    exact ⟨p, hp, rfl⟩

/-- No lookahead asks for two rules of one nonterminal. -/
theorem printfCells_unique : ∀ c ∈ printfCells, ∀ d ∈ printfCells, c.1.lhs = d.1.lhs →
    ∀ t ∈ c.2, t ∈ d.2 → c.1 = d.1 := by
  decide +kernel

end Grammar

open Grammar

/-- The grammar of statements is LL(1). -/
theorem statementAnalysis_conflicts : statementAnalysis.conflicts = [] := by
  apply conflicts_eq_nil_of_unique
  intro p hp q hq hlhs t ht ht'
  exact printfCells_unique _ (mem_printfCells.mpr ⟨hp, rfl⟩) _ (mem_printfCells.mpr ⟨hq, rfl⟩)
    hlhs t ht ht'

/-- A cell of the table holds the rule of its nonterminal that the lookahead asks for. -/
theorem rule?_eq_some_iff_mem_printfCells {n t : String} {p : Production} :
    statementAnalysis.table.rule? n t = some p ↔
      ∃ ts, (p, ts) ∈ printfCells ∧ p.lhs = n ∧ t ∈ ts := by
  have hcell := rule?_eq_some_iff printf_wellFormed.toDeclared statementAnalysis_conflicts
    (n := n) (t := t) (p := p)
  rw [statementAnalysis, hcell, ← mem_predict_iff_asks printf_wellFormed.toDeclared, mem_predict]
  constructor
  · rintro ⟨hp, hn, ht⟩
    exact ⟨_, mem_printfCells.mpr ⟨hp, rfl⟩, hn, ht⟩
  · rintro ⟨ts, hmem, hn, ht⟩
    rcases mem_printfCells.mp hmem with ⟨hp, rfl⟩
    exact ⟨hp, hn, ht⟩

theorem rule?_of_mem_printfCells {p : Production} {ts : List String}
    (h : (p, ts) ∈ printfCells) {t : String} (ht : t ∈ ts) :
    statementAnalysis.table.rule? p.lhs t = some p :=
  rule?_eq_some_iff_mem_printfCells.mpr ⟨ts, h, rfl, ht⟩

/-- All lookaheads that ask for a rule of a nonterminal. -/
def printfLookaheads (n : String) : List String :=
  (printfCells.filter fun c => c.1.lhs = n).flatMap Prod.snd

theorem rule?_eq_none {n t : String} (h : t ∉ printfLookaheads n) :
    statementAnalysis.table.rule? n t = none := by
  rw [Option.eq_none_iff_forall_not_mem]
  intro p hp
  rcases rule?_eq_some_iff_mem_printfCells.mp hp with ⟨ts, hmem, hn, ht⟩
  apply h
  exact List.mem_flatMap.mpr ⟨(p, ts), List.mem_filter.mpr ⟨hmem, by simpa using hn⟩, ht⟩

end PrintfLint
