import PrintfLint.Json
import PrintfLint.Options
import PrintfLint.Service.Numeral

/-!
# PrintfLint.Service.Settings — the settings of the service

* `Settings` — the settings and their defaults;
* `Settings.ofEnvironment` — the settings that environment variables make.

The variable of a setting is named `PRINTF_VALIDATOR_` and the setting; case does not matter, and of
several variables with one name the last one counts.
-/

namespace PrintfLint.Service

/-- The settings of the service. -/
structure Settings where
  apiTitle : String := "Printf Validator"
  apiVersion : String := "1.0.0"
  corsOrigins : List String := ["*"]
  logLevel : String := "INFO"
  host : String := "127.0.0.1"
  port : Int := 8000
  /-- Requests with more lines are refused. -/
  maxLines : Int := 1000
  strictNumbers : Bool := false
  strictStrings : Bool := false
  propagateUnknown : Bool := false
deriving DecidableEq, Repr

/-- Why an environment makes no settings. -/
inductive SettingsError where
  /-- The list of origins is not JSON. -/
  | notJson
  | invalid (faults : List Fault)
deriving DecidableEq, Repr

namespace Settings

/-- The options for requests that set none. -/
def defaultOptions (s : Settings) : Options :=
  { numbers := s.strictNumbers, literals := s.strictStrings, propagate := s.propagateUnknown }

/-! ## Environment variables -/

/-- Folds the case of a letter. Of the characters beyond ASCII only the Kelvin sign has an ASCII
letter as its lower case. -/
def foldCase (c : Char) : Char :=
  if c = '\u212A' then 'k' else c.toLower

/-- The text of the variable of a setting. -/
def spelled? (environment : List (String × String)) (setting : String) : Option String :=
  let name := ("printf_validator_" ++ setting).toList
  (environment.reverse.find? fun (n, _) => n.toList.map foldCase = name).map Prod.snd

/-- The value of a variable, or the default where there is no variable. -/
def valueOf {α : Type} (read : String → Except FaultKind α) (environment : List (String × String))
    (setting : String) (default : α) : Except Fault α :=
  match spelled? environment setting with
  | none => .ok default
  | some s =>
    match read s with
    | .ok a => .ok a
    | .error kind => .error { kind, field := setting }

/-! ## Origins -/

/-- What is wrong with an item of the list of origins. -/
def originFault (item : Nat) : Json → List Fault
  | .text codes =>
    if (Json.string? codes).isSome then []
    else [{ kind := .stringUnicode, field := "cors_origins", item? := some item }]
  | _ => [{ kind := .stringType, field := "cors_origins", item? := some item }]

/-- An item of the list of origins. -/
def origin? : Json → Option String
  | .text codes => Json.string? codes
  | _ => none

/-- The origins that a JSON value lists; `null` leaves the default. -/
def originsOf (default : List String) : Json → Except (List Fault) (List String)
  | .null => .ok default
  | .list items =>
    match (items.zipIdx.flatMap fun (x, i) => originFault i x) with
    | [] => .ok (items.filterMap origin?)
    | faults => .error faults
  | _ => .error [{ kind := .listType, field := "cors_origins" }]

/-! ## Reading the environment -/

/-- The order in which faults are reported: by reason, then by field and item. -/
def faultLe (a b : Fault) : Bool :=
  if a.kind.code ≠ b.kind.code then decide (a.kind.code ≤ b.kind.code)
  else if a.field ≠ b.field then decide (a.field ≤ b.field)
  else decide (a.item?.getD 0 ≤ b.item?.getD 0)

/-- The settings that variables make, given the origins. -/
def assemble (environment : List (String × String))
    (origins : Except (List Fault) (List String)) : Except SettingsError Settings :=
  let d : Settings := {}
  let text (setting default : String) := (spelled? environment setting).getD default
  let port := valueOf readInt environment "port" d.port
  let maxLines := valueOf readInt environment "max_lines" d.maxLines
  let numbers := valueOf readBoolWord environment "strict_numbers" d.strictNumbers
  let strings := valueOf readBoolWord environment "strict_strings" d.strictStrings
  let propagate := valueOf readBoolWord environment "propagate_unknown" d.propagateUnknown
  match origins, port, maxLines, numbers, strings, propagate with
  | .ok origins, .ok port, .ok maxLines, .ok numbers, .ok strings, .ok propagate =>
    .ok {
      apiTitle := text "api_title" d.apiTitle
      apiVersion := text "api_version" d.apiVersion
      corsOrigins := origins
      logLevel := text "log_level" d.logLevel
      host := text "host" d.host
      port := port
      maxLines := maxLines
      strictNumbers := numbers
      strictStrings := strings
      propagateUnknown := propagate }
  | _, _, _, _, _, _ =>
    let originFaults := match origins with
      | .ok _ => []
      | .error faults => faults
    .error (.invalid ((originFaults ++ faultsOf port ++ faultsOf maxLines ++ faultsOf numbers ++
      faultsOf strings ++ faultsOf propagate).mergeSort faultLe))

/-- The settings that an environment makes. -/
def ofEnvironment (environment : List (String × String)) : Except SettingsError Settings :=
  let default := ({} : Settings).corsOrigins
  match spelled? environment "cors_origins" with
  | none => assemble environment (.ok default)
  | some s =>
    match Json.read? s with
    | none => .error .notJson
    | some x => assemble environment (originsOf default x)

end Settings

end PrintfLint.Service
