import ReportDesk.Json.Value
import ReportDesk.SortedMap
import ReportDesk.Toml.Reader

/-!
# Settings of the formula language
-/

namespace ReportDesk.Formula

structure Settings where
  trueValue : String
  falseValue : String
  /-- The words that conditions take for true, in any case. -/
  truthyValues : List String
  /-- Named constants; they go before the built-in ones. -/
  keywords : SortedMap String String
  /-- The column whose evaluation is logged one level lower. -/
  traceColumn : Option String
deriving DecidableEq

namespace Settings

def standard : Settings :=
  { trueValue := "Yes"
    falseValue := "No"
    truthyValues := ["yes", "true"]
    keywords := .empty
    traceColumn := none }

instance : Inhabited Settings := ⟨standard⟩

/-- The text without white space at its ends is one of the true words. -/
def isTrue (s : Settings) (text : String) : Bool :=
  s.truthyValues.any fun word => Text.equalIgnoringCase word (Text.trim text)

def truthText (s : Settings) (value : Bool) : String :=
  if value then s.trueValue else s.falseValue

def toJson (s : Settings) : Json :=
  Json.objectOfPresent
    [("true_value", some (.string s.trueValue)),
     ("false_value", some (.string s.falseValue)),
     ("truthy_values", some (.array (s.truthyValues.map .string))),
     ("keywords", some
       (.object (s.keywords.entries.map fun (k, v) => (k, .string v)))),
     ("trace_column", s.traceColumn.map .string)]

end Settings

/-!
## Settings in TOML files

A setting that the file does not name keeps its standard value; keys of no
meaning are passed over.
-/

inductive SettingsError where
  | unreadable (path reason : String)
  | malformed (origin reason : String)
deriving DecidableEq, Repr

def SettingsError.summary : SettingsError → String
  | .unreadable path _ => "failed to read formula config " ++ path
  | .malformed origin _ => "failed to parse formula config " ++ origin

def SettingsError.reason : SettingsError → String
  | .unreadable _ reason => reason
  | .malformed _ reason => reason

def SettingsError.message (e : SettingsError) : String :=
  e.summary ++ ": " ++ e.reason

namespace Settings

def textOf? : Toml → Option String
  | .string value => some value
  | _ => none

def textsOf? : Toml → Option (List String)
  | .array items => items.mapM textOf?
  | _ => none

def keywordsOf? (value : Toml) : Option (SortedMap String String) := do
  return .ofList
    (← (← value.entries?).mapM fun (key, value) =>
      do return (key, ← textOf? value))

def setting {α : Type} (entries : Toml.Entries) (key : String)
    (read? : Toml → Option α) (standard : α) : Option α :=
  match entries.lookup key with
  | some value => read? value
  | none => some standard

def ofToml? (entries : Toml.Entries) : Option Settings := do
  return {
    trueValue := ← setting entries "true_value" textOf? standard.trueValue
    falseValue := ← setting entries "false_value" textOf? standard.falseValue
    truthyValues :=
      ← setting entries "truthy_values" textsOf? standard.truthyValues
    keywords := ← setting entries "keywords" keywordsOf? standard.keywords
    traceColumn :=
      ← setting entries "trace_column"
        (fun value => (textOf? value).map some) none }

def read (origin text : String) : Except SettingsError Settings :=
  match Toml.read? text with
  | none => .error (.malformed origin "TOML parse error")
  | some entries =>
      match ofToml? entries with
      | some settings => .ok settings
      | none => .error (.malformed origin "TOML parse error: invalid type")

end Settings

end ReportDesk.Formula
