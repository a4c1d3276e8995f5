import PrintfLint.Command.Log
import PrintfLint.Options
import PrintfLint.Text.Decimal
import PrintfLint.Text.Quoted
import PrintfLint.Text.Upper

/-!
# PrintfLint.Command.Invocation — command line arguments

* `Flag` — the options of the command and how they are spelled;
* `Word`, `Word.classify` — what an argument is taken for;
* `Invocation` — what is asked of the command;
* `Request.ofArguments` — the request that arguments make.

A long option may be cut short as long as it stays unambiguous, and takes its value from the next
argument or after an equals sign. After two hyphens no argument is an option. All arguments are
classified before the first of them takes effect.
-/

namespace PrintfLint.Command

/-- The options of the command. -/
inductive Flag where
  | help
  | strictNumbers
  | strictStrings
  | propagateUnknown
  | tokens
  | logLevel
deriving DecidableEq, Repr

namespace Flag

/-- How the options are spelled, in the order in which they are listed. -/
def spellings : List (String × Flag) :=
  [("-h", help), ("--help", help), ("--strict-numbers", strictNumbers),
    ("--strict-strings", strictStrings), ("--propagate-unknown", propagateUnknown),
    ("--tokens", tokens), ("--log-level", logLevel)]

/-- The option of a given spelling. -/
def ofSpelling? (s : String) : Option Flag :=
  spellings.lookup s

/-- An option in a message, with all its spellings. -/
def display (f : Flag) : String :=
  "/".intercalate ((spellings.filter fun e => e.2 = f).map Prod.fst)

end Flag

/-! ## Words -/

/-- What an argument is taken for. -/
inductive Word where
  | positional (s : String)
  /-- An option as spelled out, with the value that is attached to it. -/
  | flag (f : Flag) (spelling : String) (value? : Option String)
  /-- It looks like an option and is none. -/
  | unknown (s : String)
  /-- The two hyphens after which no argument is an option. -/
  | separator
deriving DecidableEq, Repr

namespace Word

/-- Is the argument a negative number, perhaps with a line feed after it? -/
def isNegativeNumber : List Char → Bool
  | '-' :: rest =>
    let body := if rest.getLast? = some '\n' then rest.dropLast else rest
    match body.dropWhile Text.isDecimal with
    | [] => !body.isEmpty
    | '.' :: fraction => !fraction.isEmpty && fraction.all Text.isDecimal
    | _ => false
  | _ => false

/-- The parts of an argument before and after its first equals sign. -/
def splitValue (cs : List Char) : List Char × Option String :=
  match cs.dropWhile (· ≠ '=') with
  | [] => (cs, none)
  | _ :: value => (cs.takeWhile (· ≠ '='), some (String.ofList value))

/-- The options that an argument with two hyphens may be short for. -/
def longCandidates (cs : List Char) : List (Flag × String × Option String) :=
  let (start, value?) := splitValue cs
  Flag.spellings.filterMap fun (spelling, f) =>
    if start.isPrefixOf spelling.toList then some (f, spelling, value?) else none

/-- The options that an argument with one hyphen may stand for: one of a single letter, with the
rest of the argument as its value, or a longer one. -/
def shortCandidates (cs : List Char) : List (Flag × String × Option String) :=
  Flag.spellings.filterMap fun (spelling, f) =>
    if spelling.toList = cs.take 2 then some (f, spelling, some (String.ofList (cs.drop 2)))
    else if cs.isPrefixOf spelling.toList then some (f, spelling, none)
    else none

/-- An argument that is no option in full. -/
def classifyAbbreviated (s : String) (cs : List Char) : Except String Word :=
  let candidates := match cs with
    | _ :: '-' :: _ => longCandidates cs
    | _ => shortCandidates cs
  match candidates with
  | [(f, spelling, value?)] => .ok (.flag f spelling value?)
  | [] => .ok (if isNegativeNumber cs || cs.contains ' ' then .positional s else .unknown s)
  | several =>
    .error ("ambiguous option: " ++ s ++ " could match " ++
      ", ".intercalate (several.map fun c => c.2.1))

/-- What an argument is taken for, or why that cannot be told. -/
def classify (s : String) : Except String Word :=
  match s.toList with
  | '-' :: rest =>
    match Flag.ofSpelling? s with
    | some f => .ok (.flag f s none)
    | none =>
      if rest.isEmpty then .ok (.positional s)
      else
        match splitValue ('-' :: rest) with
        | (_, none) => classifyAbbreviated s ('-' :: rest)
        | (name, some value) =>
          match Flag.ofSpelling? (String.ofList name) with
          | some f => .ok (.flag f (String.ofList name) (some value))
          | none => classifyAbbreviated s ('-' :: rest)
  | _ => .ok (.positional s)

/-- What each of the arguments is taken for. -/
def classifyAll : List String → Except String (List Word)
  | [] => .ok []
  | s :: rest =>
    if s = "--" then .ok (separator :: rest.map positional)
    else do
      let w ← classify s
      let ws ← classifyAll rest
      return w :: ws

end Word

/-! ## Requests -/

/-- A check that is asked for. -/
structure Invocation where
  file? : Option String := none
  options : Options := {}
  tokens : Bool := false
  /-- The least important level that is logged; none if two hyphens stood in its place. -/
  level? : Option Level := some .warning
deriving DecidableEq, Repr

/-- What arguments ask for. -/
inductive Request where
  | check (i : Invocation)
  | help
  /-- The arguments are wrong. -/
  | refuse (message : String)
deriving DecidableEq, Repr

namespace Request

/-- A complaint about an option. -/
def complain (f : Flag) (message : String) : Request :=
  .refuse ("argument " ++ f.display ++ ": " ++ message)

/-- A complaint about a value for an option that takes none. -/
def complainOfValue (f : Flag) (value : String) : Request :=
  complain f ("ignored explicit argument " ++ Text.quote value)

/-- The request that the option for help makes. Its one letter may be repeated. -/
def ofHelp (spelling : String) : Option String → Request
  | none => .help
  | some value =>
    if spelling = "-h" ∧ value ≠ "" then
      match value.toList.dropWhile (· = 'h') with
      | [] => .help
      | rest => complainOfValue .help (String.ofList rest)
    else complainOfValue .help value

/-- The level that a value names; the case of letters does not matter. -/
def levelOf (value : String) : Except Request (Option Level) :=
  if value = "--" then .ok none
  else
    let name := String.ofList (Text.upper value.toList)
    match Level.ofName? name with
    | some l => .ok (some l)
    | none =>
      .error (complain .logLevel ("invalid choice: " ++ Text.quote name ++ " (choose from " ++
        ", ".intercalate (Level.all.map fun l => Text.quote l.name) ++ ")"))

/-- The invocation with a switch turned on. -/
def switch (i : Invocation) : Flag → Invocation
  | .strictNumbers => { i with options := { i.options with numbers := true } }
  | .strictStrings => { i with options := { i.options with literals := true } }
  | .propagateUnknown => { i with options := { i.options with propagate := true } }
  | .tokens => { i with tokens := true }
  | .help => i
  | .logLevel => i

/-- The request at the end of the arguments; `extras` are those that nothing was made of. -/
def finish (i : Invocation) (extras : List String) : Request :=
  if extras.isEmpty then .check i
  else .refuse ("unrecognized arguments: " ++ " ".intercalate extras)

/-- The request that words make. The first positional word is the file; a separator next to it goes
with it. -/
def ofWords (i : Invocation) (extras : List String) : List Word → Request
  | [] => finish i extras
  | .positional s :: .separator :: rest =>
    match i.file? with
    | none => ofWords { i with file? := some s } extras rest
    | some _ => ofWords i (extras ++ [s, "--"]) rest
  | .positional s :: rest =>
    match i.file? with
    | none => ofWords { i with file? := some s } extras rest
    | some _ => ofWords i (extras ++ [s]) rest
  | .separator :: rest =>
    match i.file? with
    | none => ofWords i extras rest
    | some _ => ofWords i (extras ++ ["--"]) rest
  | .unknown s :: rest => ofWords i (extras ++ [s]) rest
  | .flag .help spelling value? :: _ => ofHelp spelling value?
  | .flag .logLevel _ (some value) :: rest =>
    match levelOf value with
    | .ok level? => ofWords { i with level? := level? } extras rest
    | .error r => r
  | .flag .logLevel _ none :: .positional value :: rest =>
    match levelOf value with
    | .ok level? => ofWords { i with level? := level? } extras rest
    | .error r => r
  | .flag .logLevel _ none :: _ => complain .logLevel "expected one argument"
  | .flag f _ (some value) :: _ => complainOfValue f value
  | .flag f _ none :: rest => ofWords (switch i f) extras rest

/-- The request that arguments make. -/
def ofArguments (arguments : List String) : Request :=
  match Word.classifyAll arguments with
  | .error message => .refuse message
  | .ok words => ofWords {} [] words

end Request

/-! ## Usage -/

/-- How the command is called. -/
def usage : String :=
  "usage: printf-validator [-h] [--strict-numbers] [--strict-strings]\n" ++
  "                        [--propagate-unknown] [--tokens]\n" ++
  "                        [--log-level \x7bDEBUG,INFO,WARNING,ERROR,CRITICAL\x7d]\n" ++
  "                        [file]\n"

/-- What the command does and what its arguments mean. -/
def helpText : String :=
  usage ++
  "\nCheck printf calls line by line.\n" ++
  "\npositional arguments:\n" ++
  "  file                  source file with one printf call per line (prompted\n" ++
  "                        for when omitted)\n" ++
  "\noptions:\n" ++
  "  -h, --help            show this help message and exit\n" ++
  "  --strict-numbers      reject numbers with more than one '.'\n" ++
  "  --strict-strings      reject unterminated string literals\n" ++
  "  --propagate-unknown   treat arithmetic on identifiers as Unknown\n" ++
  "  --tokens              print the token stream of each line\n" ++
  "  --log-level \x7bDEBUG,INFO,WARNING,ERROR,CRITICAL\x7d\n" ++
  "                        logging level (default: WARNING)\n"

end PrintfLint.Command
