import PrintfLint.Command.Check
import Std.Time.Format

/-!
# PrintfLint.Main — the command

The outer layer of the command: it reads the file and the clock, and prints what `execute` says.
-/

namespace PrintfLint.Command

/-- The time of day in log entries. -/
def logTime : IO String := do
  let now ← Std.Time.Timestamp.now
  let wall := Std.Time.PlainDateTime.ofWallTime (.ofTimestamp now .zero)
  return wall.format "uuuu-MM-dd HH:mm:ss"

/-- Milliseconds with two places. -/
def milliseconds (nanoseconds : Nat) : String :=
  let hundredths := (nanoseconds + 5000) / 10000
  let places := toString (hundredths % 100)
  toString (hundredths / 100) ++ "." ++ (if places.length = 1 then "0" else "") ++ places

/-- The contents of a file, or why it cannot be read. -/
def readContents (name : String) : IO (Except ReadFault ByteArray) := do
  if name.toList.contains '\x00' then return .error .nullByte
  try
    return .ok (← IO.FS.readBinFile (Path.ofName name).render)
  catch e =>
    match e with
    | .noFileOrDirectory .. => return .error .notFound
    | .inappropriateType _ 21 _ => return .error .isDirectory
    | .inappropriateType _ 20 _ => return .error .notDirectory
    | .permissionDenied _ number _ => return .error (.refused number.toNat "Permission denied")
    | .resourceExhausted _ number _ => return .error (.refused number.toNat "File name too long")
    | e => return .error (.refused 5 (toString e))

end PrintfLint.Command

open PrintfLint.Command

/-- Asks for a file name if there is none among the arguments, and runs the command. -/
def main (arguments : List String) : IO UInt32 := do
  let mut input := ""
  let mut asked := ""
  let mut contents := Except.error ReadFault.notFound
  let started ← IO.monoNanosNow
  if let .check i := Request.ofArguments arguments then
    if (i.fileName "").1 ≠ "" then
      asked := (i.fileName "").1
      IO.print asked
      (← IO.getStdout).flush
      input ← (← IO.getStdin).getLine
    if let .ok name := (i.fileName input).2 then
      contents ← readContents name
  let result := execute (← logTime) (fun _ => contents) arguments input
  IO.eprint result.err
  let spent := (← IO.monoNanosNow) - started
  IO.print ((result.text (milliseconds spent)).drop asked.length)
  match result.ending with
  | .finished code => return code.toUInt32
  | .dismissed code => return code.toUInt32
  | .crashed c =>
    IO.eprintln ("error: " ++ c.message)
    return 1
