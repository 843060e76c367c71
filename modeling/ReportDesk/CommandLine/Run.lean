import ReportDesk.CommandLine.Invocation
import ReportDesk.Display.Overview

/-!
# Running a command

A run is a function of the arguments, of the files it may read and of the day.
It tells what to print, what to log and how to exit.
-/

namespace ReportDesk.CommandLine

structure Surroundings where
  file : String → Except String String
  /-- Why a file cannot be opened for the log, if it cannot. -/
  logFault : String → Option String
  today : Date
  ids : IdSource

/-- An error in the words of this program, and in the words of others. -/
structure Complaint where
  ownWords : String
  foreignWords : Option String
deriving DecidableEq, Repr

def Complaint.message (c : Complaint) : String :=
  String.intercalate ": " (c.ownWords :: c.foreignWords.toList)

structure Outcome where
  exitCode : Nat
  output : String
  complaint : Option Complaint
  log : String
  /-- The file for the log lines, if they do not go to standard error. -/
  logFile : Option String
deriving DecidableEq, Repr

def Outcome.errorText (o : Outcome) : String :=
  (if o.logFile.isSome then "" else o.log) ++
    match o.complaint with
    | some complaint => "error: " ++ complaint.message ++ "\n"
    | none => ""

/-! ## Reading the files -/

def readSettings (s : Surroundings) :
    Option String → Except Workbook.Failure Formula.Settings
  | none => .ok .standard
  | some path =>
      let settings :=
        match s.file path with
        | .ok text => Formula.Settings.read path text
        | .error reason => .error (.unreadable path reason)
      settings.mapError fun error => ⟨["load formula config"], .settings error⟩

def loadWorkbook (s : Surroundings) (path : String) :
    Logged Workbook.Failure Workbook :=
  match s.file path with
  | .error reason => .fail ⟨["read workbook " ++ path], .file reason⟩
  | .ok text =>
      let loading := fun failure : Workbook.Failure =>
        failure.within ("load workbook " ++ path)
      match WorkbookFile.read text with
      | .error failure => .fail (loading failure)
      | .ok file =>
        ⟨Workbook.loadEvents file, (Workbook.ofFile file).mapError loading⟩

/-! ## The commands -/

def commandOutput (s : Surroundings) (settingsFile : Option String) :
    Command → Logged Workbook.Failure String
  | .solve path table header row => do
      let settings ← .ofExcept (readSettings s settingsFile)
      let workbook ← loadWorkbook s path
      let solution :=
        workbook.solveTable ⟨settings, s.today, s.ids⟩ table header row
      let rows ← ⟨solution.events, solution.result⟩
      .log (.solveFinished table rows.length)
      return (Display.solvedGrid rows).render ++ "\n"
  | .deps path table header => do
      let workbook ← loadWorkbook s path
      let counts ← .ofExcept (workbook.dependencyCounts table header)
      return (Display.dependencyGrid counts).render ++ "\n"
  | .functions => pure (Display.functionGrid.render ++ "\n")
  | .statuses => pure (Display.statusGrid.render ++ "\n")

def runCommand (s : Surroundings) (i : Invocation) : Outcome :=
  let done := commandOutput s i.settingsFile i.command
  let log := Log.lines i.filter i.coloured i.layout done.events
  match done.result with
  | .ok output => ⟨0, output, none, log, i.logFile⟩
  | .error failure =>
      ⟨1, "", some ⟨failure.ownWords, failure.cause.foreignWords⟩, log,
        i.logFile⟩

def runInvocation (s : Surroundings) (i : Invocation) : Outcome :=
  match i.logFile.bind s.logFault with
  | some reason =>
      ⟨1, "", some ⟨"failed to initialize logging", some reason⟩, "", none⟩
  | none => runCommand s i

def run (s : Surroundings) (arguments : List String) : Outcome :=
  match readArguments arguments with
  | .error error => ⟨2, "", some ⟨error.message, none⟩, "", none⟩
  | .ok (.help command) => ⟨0, helpText command ++ "\n", none, "", none⟩
  | .ok .version => ⟨0, versionText ++ "\n", none, "", none⟩
  | .ok (.run invocation) => runInvocation s invocation

def filesToRead (arguments : List String) : List String :=
  match readArguments arguments with
  | .ok (.run i) =>
      match i.command with
      | .solve path .. => path :: i.settingsFile.toList
      | .deps path .. => [path]
      | _ => []
  | _ => []

def logFileOf (arguments : List String) : Option String :=
  match readArguments arguments with
  | .ok (.run i) => i.logFile
  | _ => none

end ReportDesk.CommandLine
