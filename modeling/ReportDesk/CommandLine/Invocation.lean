import ReportDesk.CommandLine.Options
import ReportDesk.Log.Line

/-!
# What a command line asks for
-/

namespace ReportDesk.CommandLine

inductive Command where
  | solve (workbook table header : String) (row : Option RowId)
  | deps (workbook table header : String)
  | functions
  | statuses
deriving DecidableEq, Repr

structure Invocation where
  command : Command
  filter : Log.Filter
  coloured : Bool
  layout : Log.Layout
  logFile : Option String
  settingsFile : Option String
deriving DecidableEq, Repr

inductive Demand where
  | help (command : Option String)
  | version
  | run (invocation : Invocation)
deriving DecidableEq, Repr

/-! ## The levels of the command line -/

def globalOptions : List OptionSpec :=
  [⟨"verbose", some 'v', .flag⟩, ⟨"quiet", some 'q', .flag⟩,
   ⟨"color", none, .value⟩, ⟨"log-level", none, .value⟩,
   ⟨"log-format", none, .value⟩, ⟨"log-file", none, .value⟩,
   ⟨"config", none, .value⟩, ⟨"help", some 'h', .stop⟩]

def commandNames : List String := ["solve", "deps", "functions", "statuses"]

def logLevelNames : List String := ["error", "warn", "info", "debug", "trace"]

def colorNames : List String := ["auto", "always", "never"]

/-- The values that options and operands accept; paths may not be empty. -/
def acceptsValue (option value : String) : Bool :=
  match option with
  | "color" => colorNames.contains value
  | "log-level" => logLevelNames.contains value
  | "log-format" => (Log.Layout.ofName? value).isSome
  | "log-file" => !value.isEmpty
  | "config" => !value.isEmpty
  | "row" => (RowId.read value).toOption.isSome
  | "" => !value.isEmpty
  | _ => true

def mainLevel : Level where
  options := globalOptions ++ [⟨"version", some 'V', .stop⟩]
  commands := commandNames ++ ["help"]
  operands := 0
  accepts := acceptsValue

def commandLevel (command : String) : Level where
  options :=
    globalOptions ++
      match command with
      | "solve" =>
          [⟨"table", none, .value⟩, ⟨"header", none, .value⟩,
           ⟨"row", none, .value⟩]
      | "deps" => [⟨"table", none, .value⟩, ⟨"header", none, .value⟩]
      | _ => []
  commands := []
  operands := if command == "solve" || command == "deps" then 1 else 0
  accepts := acceptsValue

/-! ## From options to an invocation -/

/-- Both levels together: what stands after the command goes first. -/
structure Merged where
  outer : Collected
  inner : Collected

namespace Merged

def value? (m : Merged) (option : String) : Option String :=
  (m.inner.value? option).or (m.outer.value? option)

def count (m : Merged) (flag : String) : Nat :=
  if m.inner.count flag = 0 then m.outer.count flag else m.inner.count flag

end Merged

/-- More and less output cannot be asked for at one level. -/
def checkConflict (c : Collected) : Except UsageError Unit :=
  if c.count "verbose" ≠ 0 ∧ c.count "quiet" ≠ 0 then
    .error (.conflict "quiet" "verbose")
  else .ok ()

/-- A level that is given goes before the flags, which start from warnings. -/
def logFilter (m : Merged) : Log.Filter :=
  match (m.value? "log-level").bind Log.Filter.ofName? with
  | some filter => filter
  | none =>
      .ofRank
        ((Log.Filter.upTo .warn).rank + m.count "verbose" - m.count "quiet")

def requiredValue (c : Collected) (option : String) :
    Except UsageError String :=
  match c.value? option with
  | some value => .ok value
  | none => .error (.missingArgument ("--" ++ option))

def requiredOperand (c : Collected) (name : String) :
    Except UsageError String :=
  match c.operands with
  | operand :: _ => .ok operand
  | [] => .error (.missingArgument name)

def headerOf (c : Collected) : String :=
  (c.value? "header").getD Header.defaultValue

def commandOf (name : String) (c : Collected) : Except UsageError Command :=
  match name with
  | "solve" => do
      let workbook ← requiredOperand c "WORKBOOK"
      let table ← requiredValue c "table"
      let row := (c.value? "row").bind fun text => (RowId.read text).toOption
      return .solve workbook table (headerOf c) row
  | "deps" => do
      let workbook ← requiredOperand c "WORKBOOK"
      let table ← requiredValue c "table"
      return .deps workbook table (headerOf c)
  | "functions" => .ok .functions
  | "statuses" => .ok .statuses
  | _ => .error (.unexpectedArgument name)

def invocationOf (m : Merged) (command : Command) : Invocation where
  command := command
  filter := logFilter m
  coloured := m.value? "color" == some "always"
  layout := ((m.value? "log-format").bind Log.Layout.ofName?).getD .pretty
  logFile := m.value? "log-file"
  settingsFile := m.value? "config"

def helpOn : List String → Except UsageError Demand
  | [] => .ok (.help none)
  | [name] =>
      if commandNames.contains name || name == "help" then
        .ok (.help (some name))
      else .error (.unexpectedArgument name)
  | name :: _ => .error (.unexpectedArgument name)

def stopDemand (command : Option String) (option : String) : Demand :=
  if option == "version" then .version else .help command

def readArguments (arguments : List String) : Except UsageError Demand := do
  let (outer, ending) ← mainLevel.read arguments .empty
  match ending with
  | .complete => .error .missingCommand
  | .stopped option => return stopDemand none option
  | .command name rest =>
      if name == "help" then helpOn rest
      else
        let (inner, ending) ← (commandLevel name).read rest .empty
        match ending with
        | .stopped option => return stopDemand (some name) option
        | .command other _ => .error (.unexpectedArgument other)
        | .complete =>
            let command ← commandOf name inner
            checkConflict inner
            checkConflict outer
            return .run (invocationOf ⟨outer, inner⟩ command)

/-! ## Help texts -/

def versionText : String := "rcl 0.1.0"

def globalHelp : List String :=
  ["  -v, --verbose...           More log output (-v for info, -vv for debug)",
   "  -q, --quiet...             Less log output",
   "      --color <WHEN>         Colours of the output [default: auto] [possible values: auto, always, never]",
   "      --log-level <LEVEL>    Log level, goes before -v and -q [possible values: error, warn, info, debug, trace]",
   "      --log-format <FORMAT>  Layout of log lines [default: pretty] [possible values: pretty, compact, json]",
   "      --log-file <PATH>      Write log lines to a file instead of standard error",
   "      --config <FILE>        Formula settings: true words, keywords, traced column",
   "  -h, --help                 Print help"]

def commandHelp : String → String × String × List String
  | "solve" =>
      ("Solve the formulas of a table and print the written values",
       "rcl solve [OPTIONS] --table <TABLE> <WORKBOOK>",
       ["      --table <TABLE>        Table (sheet name) to solve",
        "      --header <HEADER>      Field header whose formulas are solved [default: defaultValue]",
        "      --row <ID>             Solve only this row"])
  | "deps" =>
      ("Print how many sibling formulas each column formula depends on",
       "rcl deps [OPTIONS] --table <TABLE> <WORKBOOK>",
       ["      --table <TABLE>        Table (sheet name) to read",
        "      --header <HEADER>      Field header of the formulas [default: defaultValue]"])
  | "functions" => ("List the formula functions", "rcl functions [OPTIONS]", [])
  | "statuses" =>
      ("List report statuses and what each one allows",
        "rcl statuses [OPTIONS]", [])
  | _ => ("Print the help of a command", "rcl help [COMMAND]", [])

def commandLine (name : String) : String :=
  "  " ++ name ++ String.ofList (List.replicate (11 - name.length) ' ') ++
    (commandHelp name).1

def helpLines : Option String → List String
  | none =>
      ["Solve the column formulas of workbook tables and inspect the",
       "function registry and report statuses of the reporting client.", "",
       "Usage: rcl [OPTIONS] <COMMAND>", "", "Commands:"] ++
        (commandNames ++ ["help"]).map commandLine ++
        ["", "Options:"] ++ globalHelp ++
        ["  -V, --version              Print version"]
  | some name =>
      let (purpose, usage, options) := commandHelp name
      [purpose, "", "Usage: " ++ usage, "", "Options:"] ++ options ++ globalHelp

def helpText (command : Option String) : String :=
  String.intercalate "\n" (helpLines command)

end ReportDesk.CommandLine
