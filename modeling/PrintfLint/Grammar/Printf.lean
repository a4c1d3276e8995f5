import PrintfLint.Grammar.Recogniser
import PrintfLint.Token

/-!
# PrintfLint.Grammar.Printf — the grammar of statements

The grammar of a statement, with its repetitions written as right-recursive tails so that one symbol
of lookahead decides, and the terminals that tokens stand for.
-/

namespace PrintfLint

namespace Grammar

/-- The grammar of a statement. -/
def printf : Grammar where
  start := "printf_expr"
  nonterminals := ["printf_expr", "printf_body", "body_tail", "arg_list", "arg_tail", "expr",
    "expr_tail", "term", "term_tail", "factor", "call_suffix", "call_args"]
  productions := [
    ⟨"printf_expr", ["printf", "(", "printf_body", ")", ";"]⟩,
    ⟨"printf_body", ["str", "body_tail"]⟩,
    ⟨"body_tail", [",", "arg_list"]⟩,
    ⟨"body_tail", [epsilon]⟩,
    ⟨"arg_list", ["expr", "arg_tail"]⟩,
    ⟨"arg_tail", [",", "expr", "arg_tail"]⟩,
    ⟨"arg_tail", [epsilon]⟩,
    ⟨"expr", ["term", "expr_tail"]⟩,
    ⟨"expr_tail", ["+", "term", "expr_tail"]⟩,
    ⟨"expr_tail", ["-", "term", "expr_tail"]⟩,
    ⟨"expr_tail", [epsilon]⟩,
    ⟨"term", ["factor", "term_tail"]⟩,
    ⟨"term_tail", ["*", "factor", "term_tail"]⟩,
    ⟨"term_tail", ["/", "factor", "term_tail"]⟩,
    ⟨"term_tail", [epsilon]⟩,
    ⟨"factor", ["id", "call_suffix"]⟩,
    ⟨"factor", ["num"]⟩,
    ⟨"factor", ["(", "expr", ")"]⟩,
    ⟨"call_suffix", ["(", "call_args", ")"]⟩,
    ⟨"call_suffix", [epsilon]⟩,
    ⟨"call_args", ["arg_list"]⟩,
    ⟨"call_args", [epsilon]⟩]

end Grammar

namespace Token

/-- The terminal that a token stands for: an operator for its own text, the end of input for
none. -/
def terminal? (t : Token) : Option String :=
  match t.kind with
  | .printf => some "printf"
  | .lparen => some "("
  | .rparen => some ")"
  | .semicolon => some ";"
  | .literal => some "str"
  | .comma => some ","
  | .identifier => some "id"
  | .number => some "num"
  | .operator => some t.text
  | .directive => some "fmt"
  | .function => some "fn"
  | .endOfInput => none

/-- The terminals of a token stream. -/
def terminals (ts : List Token) : List String :=
  ts.filterMap terminal?

end Token

/-- The analysis of the grammar of statements. -/
def statementAnalysis : Analysis :=
  Grammar.printf.analyse

end PrintfLint
