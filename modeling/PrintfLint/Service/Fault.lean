import PrintfLint.Data

/-!
# PrintfLint.Service.Fault — values from outside

* `FaultKind`, `Fault` — why a value that was handed in is not of the type that is asked for;
* `readBool`, `readString` — truth values and texts.
-/

namespace PrintfLint.Service

/-- Why a value is refused. -/
inductive FaultKind where
  | missing
  | stringType
  | stringUnicode
  | boolType
  | boolParsing
  | intParsing
  | intParsingSize
  | listType
deriving DecidableEq, Repr

/-- The code of a reason. -/
def FaultKind.code : FaultKind → String
  | missing => "missing"
  | stringType => "string_type"
  | stringUnicode => "string_unicode"
  | boolType => "bool_type"
  | boolParsing => "bool_parsing"
  | intParsing => "int_parsing"
  | intParsingSize => "int_parsing_size"
  | listType => "list_type"

/-- A value that is refused: a field, or an item of it, and the reason. -/
structure Fault where
  kind : FaultKind
  field : String
  item? : Option Nat := none
deriving DecidableEq, Repr

/-- The fault of a value, if it has one. -/
def faultsOf {α : Type} : Except Fault α → List Fault
  | .ok _ => []
  | .error f => [f]

/-! ## Truth values -/

/-- The words for the two truth values. -/
def boolWords : List (String × Bool) :=
  [("0", false), ("off", false), ("f", false), ("false", false), ("n", false), ("no", false),
    ("1", true), ("on", true), ("t", true), ("true", true), ("y", true), ("yes", true)]

/-- A truth value spelled in words; the case of ASCII letters does not matter. -/
def readBoolWord (s : String) : Except FaultKind Bool :=
  match boolWords.lookup s.toLower with
  | some b => .ok b
  | none => .error .boolParsing

/-- A truth value spelled as a number. -/
def readBoolNumber (n : Int) : Except FaultKind Bool :=
  if n = 0 then .ok false else if n = 1 then .ok true else .error .boolParsing

/-- A truth value. -/
def readBool : Data → Except FaultKind Bool
  | .bool b => .ok b
  | .int n => readBoolNumber n
  | .decimal m places =>
    if m % Int.pow 10 places = 0 then readBoolNumber (m / Int.pow 10 places)
    else .error .boolType
  | .text s => readBoolWord s
  | _ => .error .boolType

/-! ## Texts -/

/-- A text. -/
def readString : Data → Except FaultKind String
  | .text s => .ok s
  | _ => .error .stringType

end PrintfLint.Service
