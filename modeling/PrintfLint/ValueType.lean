/-!
# PrintfLint.ValueType — the types of values

The types that a directive asks for and an argument has, when two of them fit together, and the
type of an arithmetic operation.
-/

namespace PrintfLint

/-- The type of a value; `unknown` stands for any of the others. -/
inductive ValueType where
  | integer
  | float
  | string
  | char
  | unknown
deriving DecidableEq, Repr

namespace ValueType

/-- The name of a type, as messages show it. -/
def name : ValueType → String
  | integer => "Integer"
  | float => "Float"
  | string => "String"
  | char => "Char"
  | unknown => "Unknown"

/-- All types. -/
def all : List ValueType :=
  [integer, float, string, char, unknown]

/-- The type of a given name. -/
def ofName? (s : String) : Option ValueType :=
  all.find? fun t => t.name = s

theorem ofName?_name (t : ValueType) : ofName? t.name = some t := by
  cases t <;> decide

/-- A value of one type may stand where the other is asked for: they are equal, or one of them is
unknown. -/
def compatible (a b : ValueType) : Bool :=
  a = unknown || b = unknown || a = b

/-- The type of an operation on two operands. An unknown operand makes the result unknown if
`propagate` is set; otherwise it has no influence. -/
def combine (propagate : Bool) (a b : ValueType) : ValueType :=
  if propagate && (a = unknown || b = unknown) then unknown
  else if a = float || b = float then float
  else integer

theorem combine_false (a b : ValueType) :
    combine false a b = if a = .float ∨ b = .float then .float else .integer := by
  simp [combine]

theorem combine_unknown_left (b : ValueType) : combine true .unknown b = .unknown := by
  simp [combine]

theorem combine_unknown_right (a : ValueType) : combine true a .unknown = .unknown := by
  simp [combine]

theorem combine_of_ne {a b : ValueType} (ha : a ≠ .unknown) (hb : b ≠ .unknown) :
    combine true a b = if a = .float ∨ b = .float then .float else .integer := by
  simp [combine, ha, hb]

end ValueType

end PrintfLint
