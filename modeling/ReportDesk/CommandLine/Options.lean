/-!
# Options on a command line

An option has a long name and possibly a letter.  A flag takes no value; any
other option takes exactly one, after an equals sign or as the next argument.
-/

namespace ReportDesk.CommandLine

inductive OptionKind where
  /-- May be given several times; its occurrences are counted. -/
  | flag
  /-- Takes a value and may be given once. -/
  | value
  /-- Ends the reading at once. -/
  | stop
deriving DecidableEq, Repr

structure OptionSpec where
  long : String
  short : Option Char
  kind : OptionKind
deriving Repr

inductive UsageError where
  | unexpectedArgument (argument : String)
  | unexpectedValue (option : String)
  | missingValue (option : String)
  | repeatedOption (option : String)
  | invalidValue (option value : String)
  | conflict (first second : String)
  | missingArgument (name : String)
  | missingCommand
deriving DecidableEq, Repr

def UsageError.message : UsageError → String
  | .unexpectedArgument argument =>
    "unexpected argument '" ++ argument ++ "' found"
  | .unexpectedValue option => "unexpected value for '--" ++ option ++ "'"
  | .missingValue option => "a value is required for '--" ++ option ++ "'"
  | .repeatedOption option =>
      "the argument '--" ++ option ++ "' cannot be used multiple times"
  | .invalidValue option value =>
      "invalid value '" ++ value ++ "' for '" ++ option ++ "'"
  | .conflict first second =>
      "the argument '--" ++ first ++ "' cannot be used with '--" ++
        second ++ "'"
  | .missingArgument name => "the argument '" ++ name ++ "' was not provided"
  | .missingCommand => "a command is required"

structure Collected where
  flags : List String
  values : List (String × String)
  operands : List String
deriving DecidableEq, Repr

namespace Collected

def empty : Collected := ⟨[], [], []⟩

def count (c : Collected) (flag : String) : Nat :=
  c.flags.count flag

def value? (c : Collected) (option : String) : Option String :=
  c.values.lookup option

def addValue (c : Collected) (option value : String) :
    Except UsageError Collected :=
  if (c.value? option).isSome then .error (.repeatedOption option)
  else .ok { c with values := c.values ++ [(option, value)] }

end Collected

inductive Ending where
  | complete
  | stopped (option : String)
  | command (name : String) (rest : List String)
deriving DecidableEq, Repr

structure Level where
  options : List OptionSpec
  /-- The names of commands; they are looked for in place of operands. -/
  commands : List String
  operands : Nat
  /-- Checks the value of an option, or of the operand with the empty name. -/
  accepts : String → String → Bool

namespace Level

def optionNamed? (level : Level) (long : String) : Option OptionSpec :=
  level.options.find? fun o => o.long == long

def optionLettered? (level : Level) (letter : Char) : Option OptionSpec :=
  level.options.find? fun o => o.short == some letter

def looksLikeOption (argument : String) : Bool :=
  match argument.toList with
  | '-' :: _ :: _ => true
  | _ => false

def splitLong (body : List Char) : String × Option String :=
  let name := body.takeWhile (· != '=')
  let value := (body.dropWhile (· != '='))
  (String.ofList name,
    if value.isEmpty then none else some (String.ofList (value.drop 1)))

def take (level : Level) (c : Collected) (option value : String) :
    Except UsageError Collected :=
  if level.accepts option value then c.addValue option value
  else .error (.invalidValue option value)

def takeOperand (level : Level) (c : Collected) (operand : String) :
    Except UsageError Collected :=
  if level.operands ≤ c.operands.length then
    .error (.unexpectedArgument operand)
  else if level.accepts "" operand then
    .ok { c with operands := c.operands ++ [operand] }
  else .error (.invalidValue "operand" operand)

/--
Takes the letters of one argument; an option that ends the reading is told.
-/
def takeLetters (level : Level) : List Char → Collected →
    Except UsageError (Collected × Option String)
  | [], c => .ok (c, none)
  | letter :: rest, c =>
      match level.optionLettered? letter with
      | some option =>
          match option.kind with
          | .flag =>
            takeLetters level rest { c with flags := c.flags ++ [option.long] }
          | .stop => .ok (c, some option.long)
          | .value => .error (.missingValue option.long)
      | none => .error (.unexpectedArgument ("-" ++ letter.toString))

def read (level : Level) :
    List String → Collected → Except UsageError (Collected × Ending)
  | [], c => .ok (c, .complete)
  | argument :: rest, c =>
      match argument.toList with
      | ['-', '-'] => do
          let c ← rest.foldlM level.takeOperand c
          return (c, .complete)
      | '-' :: '-' :: body =>
          let (name, attached) := splitLong body
          match level.optionNamed? name with
          | none => .error (.unexpectedArgument argument)
          | some option =>
              match option.kind, attached with
              | .flag, none =>
                read level rest { c with flags := c.flags ++ [name] }
              | .stop, none => .ok (c, .stopped name)
              | .flag, some _ => .error (.unexpectedValue name)
              | .stop, some _ => .error (.unexpectedValue name)
              | .value, some value => do
                read level rest (← level.take c name value)
              | .value, none =>
                  match rest with
                  | [] => .error (.missingValue name)
                  | value :: rest =>
                      if looksLikeOption value then .error (.missingValue name)
                      else do read level rest (← level.take c name value)
      | '-' :: letter :: letters => do
          match ← level.takeLetters (letter :: letters) c with
          | (c, some option) => return (c, .stopped option)
          | (c, none) => read level rest c
      | _ =>
          if level.commands.isEmpty then do
            read level rest (← level.takeOperand c argument)
          else if level.commands.contains argument then
            .ok (c, .command argument rest)
          else .error (.unexpectedArgument argument)

end Level

end ReportDesk.CommandLine
