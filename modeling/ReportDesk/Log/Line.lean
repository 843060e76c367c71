import ReportDesk.Log.Event

/-!
# Log lines
-/

namespace ReportDesk.Log

inductive Layout where
  | pretty
  | compact
  | json
deriving DecidableEq, Repr

def Layout.ofName? : String → Option Layout
  | "pretty" => some .pretty
  | "compact" => some .compact
  | "json" => some .json
  | _ => none

def FieldValue.text : FieldValue → String
  | .verbatim text => text
  | .quoted text => Text.quoted text
  | .quotedList texts =>
    "[" ++ String.intercalate ", " (texts.map Text.quoted) ++ "]"
  | .number n => Nat.repr n

def FieldValue.toJson : FieldValue → Json
  | .quoted text => .string text
  | .number n => .natural n
  | value => .string value.text

def Level.colour : Level → Nat
  | .error => 31
  | .warn => 33
  | .info => 32
  | .debug => 34
  | .trace => 35

def rendition (coloured : Bool) (number : Nat) (text : String) : String :=
  if coloured then "\x1b[" ++ Nat.repr number ++ "m" ++ text ++ "\x1b[0m"
  else text

/--
The line of an event, with its line break.  Names of fields are italic and the
signs after them faint; JSON has no colours.
-/
def Event.line (event : Event) (coloured : Bool) : Layout → String
  | .json =>
      let fields :=
        ("message", Json.string event.message) ::
          event.fields.map fun (name, value) => (name, value.toJson)
      (Json.object
        [("level", .string event.level.title),
         ("fields", .object fields)]).render ++ "\n"
  | _ =>
      let title := event.level.title
      let margin := String.ofList (List.replicate (5 - title.length) ' ')
      let fields := event.fields.map fun (name, value) =>
        " " ++ rendition coloured 3 name ++ rendition coloured 2 "=" ++
          value.text
      rendition coloured event.level.colour (margin ++ title) ++ " " ++
        event.message ++ String.join fields ++ "\n"

def lines (filter : Filter) (coloured : Bool) (layout : Layout)
    (events : List Event) : String :=
  String.join ((events.filter filter.passesEvent).map fun event =>
    event.line coloured layout)

end ReportDesk.Log
