import PrintfLint.Options
import PrintfLint.Service.Fault

/-!
# PrintfLint.Service.Request — requests to the service

* `OptionFields`, `ValidateRequest`, `TokenizeRequest`, `ParseRequest` — the requests;
* `ValidateRequest.read` and its likes — the request in a body, or the faults of its fields in
  order.

A field that a request does not know is ignored. An option may be left out or null, and then the
settings of the service decide.
-/

namespace PrintfLint.Service

/-- The fields of a request body. -/
abbrev Body := List (String × Data)

namespace Body

/-- A field that has to be there. -/
def required {α : Type} (body : Body) (field : String) (read : Data → Except FaultKind α) :
    Except Fault α :=
  match body.lookup field with
  | none => .error { kind := .missing, field }
  | some x =>
    match read x with
    | .ok a => .ok a
    | .error kind => .error { kind, field }

/-- A field with a value for the case that it is left out. -/
def withDefault {α : Type} (body : Body) (field : String) (default : α)
    (read : Data → Except FaultKind α) : Except Fault α :=
  match body.lookup field with
  | none => .ok default
  | some _ => body.required field read

/-- An option, which may be null as well as left out. -/
def option (body : Body) (field : String) : Except Fault (Option Bool) :=
  body.withDefault field none fun x =>
    match x with
    | .null => .ok none
    | x => (readBool x).map some

end Body

/-! ## Options -/

/-- The options that a request sets. -/
structure OptionFields where
  strictNumbers : Option Bool
  strictStrings : Option Bool
  propagateUnknown : Option Bool
deriving DecidableEq, Repr

namespace OptionFields

/-- The options in a body. -/
def read (body : Body) : Except (List Fault) OptionFields :=
  let numbers := body.option "strict_numbers"
  let strings := body.option "strict_strings"
  let propagate := body.option "propagate_unknown"
  match numbers, strings, propagate with
  | .ok numbers, .ok strings, .ok propagate => .ok ⟨numbers, strings, propagate⟩
  | _, _, _ => .error (faultsOf numbers ++ faultsOf strings ++ faultsOf propagate)

/-- The options of a request, with defaults for those that it does not set. -/
def resolve (o : OptionFields) (defaults : Options) : Options :=
  { numbers := o.strictNumbers.getD defaults.numbers
    literals := o.strictStrings.getD defaults.literals
    propagate := o.propagateUnknown.getD defaults.propagate }

end OptionFields

/-- All faults of two parts of a request. -/
def allFaults {α : Type} (options : Except (List Fault) α) (rest : List Fault) : List Fault :=
  match options with
  | .ok _ => rest
  | .error fs => fs ++ rest

/-! ## Requests -/

/-- A request for verdicts on a source text. -/
structure ValidateRequest where
  options : OptionFields
  source : String
  includeTokens : Bool
deriving DecidableEq, Repr

/-- The request in a body. -/
def ValidateRequest.read (body : Body) : Except (List Fault) ValidateRequest :=
  let options := OptionFields.read body
  let source := body.required "source" readString
  let includeTokens := body.withDefault "include_tokens" false readBool
  match options, source, includeTokens with
  | .ok options, .ok source, .ok includeTokens => .ok ⟨options, source, includeTokens⟩
  | _, _, _ => .error (allFaults options (faultsOf source ++ faultsOf includeTokens))

/-- A request for the tokens of a line. -/
structure TokenizeRequest where
  options : OptionFields
  line : String
deriving DecidableEq, Repr

/-- The request in a body. -/
def TokenizeRequest.read (body : Body) : Except (List Fault) TokenizeRequest :=
  let options := OptionFields.read body
  let line := body.required "line" readString
  match options, line with
  | .ok options, .ok line => .ok ⟨options, line⟩
  | _, _ => .error (allFaults options (faultsOf line))

/-- A request for a table-driven parse of a line. -/
structure ParseRequest where
  line : String
  trace : Bool
deriving DecidableEq, Repr

/-- The request in a body. -/
def ParseRequest.read (body : Body) : Except (List Fault) ParseRequest :=
  let line := body.required "line" readString
  let trace := body.withDefault "trace" true readBool
  match line, trace with
  | .ok line, .ok trace => .ok ⟨line, trace⟩
  | _, _ => .error (faultsOf line ++ faultsOf trace)

end PrintfLint.Service
