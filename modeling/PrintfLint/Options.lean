/-!
# PrintfLint.Options — how strictly a line is judged
-/

namespace PrintfLint

/-- What the scanner refuses beyond characters that start no token. -/
structure Strictness where
  /-- Refuse numbers with more than one point. -/
  numbers : Bool := false
  /-- Refuse string literals without a closing quotation mark. -/
  literals : Bool := false
deriving DecidableEq, Repr

/-- The options of a check. -/
structure Options extends Strictness where
  /-- An operation on an unknown operand is itself of unknown type. -/
  propagate : Bool := false
deriving DecidableEq, Repr

end PrintfLint
