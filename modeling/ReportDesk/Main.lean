import ReportDesk.CommandLine.Run
import Std.Time.Zoned

/-!
# The command line program
-/

open ReportDesk CommandLine

def systemWords : IO.Error → String
  | .noFileOrDirectory .. => "No such file or directory (os error 2)"
  | .permissionDenied .. => "Permission denied (os error 13)"
  | .inappropriateType _ 21 _ => "Is a directory (os error 21)"
  | .inappropriateType .. => "Not a directory (os error 20)"
  | .userError _ => "stream did not contain valid UTF-8"
  | error => error.toString

def readInput (path : String) : IO (Except String String) := do
  try
    return .ok (← IO.FS.readFile path)
  catch error => return .error (systemWords error)

def openLog (path : String) : IO (Option String) := do
  try
    let handle ← IO.FS.Handle.mk path .append
    handle.flush
    return none
  catch error => return some (systemWords error)

def currentDay : IO Date := do
  let day ← Std.Time.PlainDate.now
  return ⟨day.year.toInt, day.month.val.toNat, day.day.val.toNat⟩

def main (arguments : List String) : IO UInt32 := do
  let logFault ←
    ((logFileOf arguments).mapM openLog : IO (Option (Option String)))
  let files ← (filesToRead arguments).mapM fun path =>
    return (path, ← readInput path)
  let seed ← IO.rand 0 (Nat.pow 2 62)
  let surroundings : Surroundings :=
    { file := fun path => (files.lookup path).getD (.error "not read")
      logFault := fun _ => logFault.join
      today := ← currentDay
      ids := ⟨seed.toUInt64⟩ }
  let outcome := run surroundings arguments
  match outcome.logFile with
  | some path =>
      IO.FS.withFile path .append fun handle => handle.putStr outcome.log
  | none => pure ()
  IO.print outcome.output
  IO.eprint outcome.errorText
  return outcome.exitCode.toUInt32
