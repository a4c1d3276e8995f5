import PrintfLint.Token
import PrintfLint.ValueType

/-!
# PrintfLint.Expr — arguments of a call

* `Expr` — numbers, names, calls, groups in parentheses and operations;
* `Expr.span` — the stretch of source that an expression covers;
* `Expr.type` — its type;
* `Argument` — what a check keeps of an expression.

The type of an expression does not look into the arguments of a call: a call is of unknown type,
as a name is.
-/

namespace PrintfLint

/-- An expression, with the tokens that fix its extent. -/
inductive Expr where
  | number (literal : Token)
  | name (identifier : Token)
  | call (callee : Token) (arguments : List Expr) (closing : Token)
  | group (opening : Token) (inner : Expr) (closing : Token)
  | binary (left : Expr) (operator : Token) (right : Expr)

namespace Expr

/-- The stretch from the first to the last token of an expression. -/
def span : Expr → Span
  | number t => t.span
  | name t => t.span
  | call f _ c => f.span.join c.span
  | group o _ c => o.span.join c.span
  | binary l _ r => l.span.join r.span

/-- A number with a point is a float, any other an integer. -/
def numberType (t : Token) : ValueType :=
  if t.text.toList.contains '.' then .float else .integer

/-- The type of an expression. -/
def type (propagate : Bool) : Expr → ValueType
  | number t => numberType t
  | name _ => .unknown
  | call .. => .unknown
  | group _ e _ => e.type propagate
  | binary l _ r => .combine propagate (l.type propagate) (r.type propagate)

end Expr

/-- What a check keeps of an argument: its type and where it stands. -/
structure Argument where
  type : ValueType
  span : Span
deriving DecidableEq, Repr

/-- The argument that an expression makes. -/
def Expr.argument (propagate : Bool) (e : Expr) : Argument :=
  ⟨e.type propagate, e.span⟩

end PrintfLint
