import Interconnect.Command
import Std.Time

/-! # The program

    Runs the command on the machine at hand.
-/

namespace Interconnect

/-- The number of the error of reading or writing a directory. -/
def directoryErrorNumber : UInt32 := 21

/-- The error of an operation on files. -/
def OsError.ofIO (e : IO.Error) : OsError :=
  match e with
  | .noFileOrDirectory .. => .notFound
  | .alreadyExists .. => .alreadyExists
  | .inappropriateType _ number _ =>
    if number = directoryErrorNumber then .isDirectory else .notDirectory
  | e => .other (toString e)

/-- The result of an operation on files, or its error. -/
def attempt {α : Type} (act : IO α) : IO (Except OsError α) := do
  try return .ok (← act)
  catch e => return .error (.ofIO e)

/-- The time, to the nanosecond. -/
def currentTime : IO String := do
  let t := Std.Time.DateTime.ofTimestampWithZone (← Std.Time.Timestamp.now) .UTC
  return s!"{t.date.get.date} {t.date.get.time} UTC"

/-- The operations of the machine at hand. It has no typesetter: a drawing is
    left to be typeset by hand. -/
def machineHost : Host IO where
  readFile path := do
    match ← attempt (IO.FS.readBinFile path) with
    | .ok contents => return .ok contents
    | .error .isDirectory => return .error (.reading .isDirectory)
    | .error e => return .error (.opening e)
  createDirectories path :=
    if path.isEmpty then return .ok () else attempt (IO.FS.createDirAll path)
  writeFile path text := attempt (IO.FS.writeFile path text)
  typeset _ _ := return .missing
  now := currentTime

end Interconnect

open Interconnect in
/-- Run the command on the words given, and end with its exit code. -/
def main (words : List String) : IO UInt32 := do
  let outcome ← Command.run machineHost words
  IO.print outcome.stdout
  for r in Journal.atMost .error outcome.records do
    IO.eprintln s!"[{r.level.name}] {r.text}"
  IO.eprint outcome.stderr
  if outcome.usage then IO.eprint (Command.Request.manual.text ++ "\n")
  return outcome.exit.toUInt32
