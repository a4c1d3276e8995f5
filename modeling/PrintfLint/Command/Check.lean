import PrintfLint.Command.Invocation
import PrintfLint.Command.Workspace

/-!
# PrintfLint.Command.Check — what the command does

* `Tally` — the summary of a check;
* `Result` — what a run prints and how it ends;
* `Invocation.fileName`, `Invocation.run` — a check;
* `execute` — the whole command.

Lines are reported on the standard output, log entries and faults on the standard error output. The
exit code is zero if all lines are valid, one if some line is not, and two if there is nothing to
check.
-/

namespace PrintfLint.Command

/-- Why a run breaks off. -/
inductive Crash where
  /-- The file is not text in UTF-8. -/
  | undecodable
  /-- There is no line with a file name. -/
  | noInput
  /-- The file name holds a null byte. -/
  | nullByte
  /-- The place of the log level is empty. -/
  | noLevel
deriving DecidableEq, Repr

/-- What is said of a crash. -/
def Crash.message : Crash → String
  | undecodable => "the file is not UTF-8"
  | noInput => "EOF when reading a line"
  | nullByte => "embedded null byte"
  | noLevel => "Level not an integer or a valid string: []"

/-- How a run ends. -/
inductive Ending where
  /-- The check came to an end. -/
  | finished (code : Nat)
  /-- The arguments asked for no check. -/
  | dismissed (code : Nat)
  | crashed (c : Crash)
deriving DecidableEq, Repr

/-- How many lines were checked, and how many of them are invalid. -/
structure Tally where
  lines : Nat
  invalid : Nat
deriving DecidableEq, Repr

namespace Tally

/-- The tally of verdicts. -/
def ofVerdicts (vs : List Verdict) : Tally :=
  ⟨vs.length, Verdict.invalidCount vs⟩

/-- The lines that are valid. -/
def valid (t : Tally) : Nat :=
  t.lines - t.invalid

/-- The summary of a check that took a time given in milliseconds. -/
def render (duration : String) (t : Tally) : String :=
  "Lines: " ++ toString t.lines ++ " | Valid: " ++ toString t.valid ++ " | Invalid: " ++
    toString t.invalid ++ " | Time: " ++ duration ++ " ms\n"

end Tally

/-- What a run prints and how it ends. -/
structure Result where
  out : String := ""
  /-- The summary that follows the output of a check. -/
  tally? : Option Tally := none
  err : String := ""
  ending : Ending
deriving DecidableEq, Repr

/-- All that a run prints on the standard output, given how long it took. -/
def Result.text (duration : String) (r : Result) : String :=
  r.out ++ (r.tally?.map (Tally.render duration)).getD ""

/-! ## Reports -/

/-- The report on a line: the verdict, and its tokens if they are asked for and there are any. -/
def reportLine (tokens : Bool) (v : Verdict) : String :=
  v.render ++ "\n" ++
    if tokens && !v.tokens.isEmpty then "    " ++ Token.renderAll v.tokens ++ "\n" else ""

/-- The report on a source text. -/
def report (tokens : Bool) (vs : List Verdict) : String :=
  String.join (vs.map (reportLine tokens))

/-- The text of a file: UTF-8, with every line break as a line feed. -/
def decode? (contents : ByteArray) : Option String :=
  (String.fromUTF8? contents).map fun s => String.ofList (Text.joinBreaks s.toList)

/-! ## Runs -/

namespace Invocation

/-- The question for the name of a file. -/
def prompt : String := "File name: "

/-- What is printed to learn the name of the file, and the name. It is the argument, or else the
first line of the input without white space around it. -/
def fileName (i : Invocation) (input : String) : String × Except Crash String :=
  match i.file?.filter (· ≠ "") with
  | some name => ("", .ok name)
  | none =>
    if input = "" then (prompt, .error .noInput)
    else
      let line := input.toList.takeWhile (· ≠ '\n')
      (prompt, .ok (String.ofList (Text.strip line)))

/-- Checks what was read of a file; `time` is the time of the log entries. -/
def run (i : Invocation) (time : String) (threshold : Level) (name : String)
    (contents : Except ReadFault ByteArray) : Result :=
  let log := Entry.renderAll time threshold
  let path := (Path.ofName name).render
  match contents with
  | .error .notFound => { err := "File not found: " ++ name ++ "\n", ending := .finished 2 }
  | .error .nullByte => { ending := .crashed .nullByte }
  | .error (.refused number reason) =>
    let message := "Could not read " ++ name ++ ": [Errno " ++ toString number ++ "] " ++ reason ++
      ": " ++ Text.quote path
    { err := log [⟨.error, message⟩] ++ message ++ "\n", ending := .finished 2 }
  | .ok bytes =>
    match decode? bytes with
    | none => { ending := .crashed .undecodable }
    | some source =>
      let vs := Verdict.ofSource i.options source
      { out := report i.tokens vs
        tally? := some (.ofVerdicts vs)
        err := log (⟨.info, "Validating " ++ path⟩ :: vs.flatMap entriesOf)
        ending := .finished (if Verdict.invalidCount vs = 0 then 0 else 1) }

end Invocation

/-- Runs the command; `read` gives the contents of files, and `time` is the time of log entries. -/
def execute (time : String) (read : String → Except ReadFault ByteArray) (arguments : List String)
    (input : String) : Result :=
  match Request.ofArguments arguments with
  | .help => { out := helpText, ending := .dismissed 0 }
  | .refuse message =>
    { err := usage ++ "printf-validator: error: " ++ message ++ "\n", ending := .dismissed 2 }
  | .check i =>
    match i.level? with
    | none => { ending := .crashed .noLevel }
    | some threshold =>
      match i.fileName input with
      | (out, .error crash) => { out := out, ending := .crashed crash }
      | (out, .ok name) =>
        let result := i.run time threshold name (read name)
        { result with out := out ++ result.out }

end PrintfLint.Command
