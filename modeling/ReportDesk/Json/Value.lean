/-!
# JSON values

Members keep the order and the repetitions of the text they were read from.
-/

namespace ReportDesk

/--
A JSON value.  Unsigned integers are told apart from all other numbers.
`unreadable` is a text, or an object with a key, whose escapes name no
character: it may be skipped but not read.
-/
inductive Json where
  | null
  | bool (value : Bool)
  | natural (value : Nat)
  | otherNumber (literal : String)
  | string (value : String)
  | array (items : List Json)
  | object (members : List (String × Json))
  | unreadable
deriving Inhabited

namespace Json

def member? (key : String) : Json → Option Json
  | .object members => members.lookup key
  | _ => none

def objectOfPresent (members : List (String × Option Json)) : Json :=
  .object (members.filterMap fun (key, value) => value.map fun v => (key, v))

end Json

end ReportDesk

namespace ReportDesk.Json

/-!
## Writing JSON text

Values are written without white space between them.
-/

def fourHexDigits (n : Nat) : String :=
  let digits := Nat.toDigits 16 n
  String.ofList (List.replicate (4 - digits.length) '0' ++ digits)

def escape (c : Char) : String :=
  if c == '"' then "\\\""
  else if c == '\\' then "\\\\"
  else if c == '\n' then "\\n"
  else if c == '\r' then "\\r"
  else if c == '\t' then "\\t"
  else if c.toNat < 0x20 then "\\u" ++ fourHexDigits c.toNat
  else c.toString

def renderString (s : String) : String :=
  "\"" ++ String.join (s.toList.map escape) ++ "\""

mutual

def render : Json → String
  | .null => "null"
  | .bool value => if value then "true" else "false"
  | .natural value => Nat.repr value
  | .otherNumber literal => literal
  | .string value => renderString value
  | .array items => "[" ++ renderItems items ++ "]"
  | .object members => "\x7b" ++ renderMembers members ++ "\x7d"
  | .unreadable => "null"

def renderItems : List Json → String
  | [] => ""
  | [item] => render item
  | item :: items => render item ++ "," ++ renderItems items

def renderMembers : List (String × Json) → String
  | [] => ""
  | [(key, value)] => renderString key ++ ":" ++ render value
  | (key, value) :: members =>
      renderString key ++ ":" ++ render value ++ "," ++ renderMembers members

end

/-!
## Records in JSON

A record is an object with known keys, or an array of its values in the order
of the fields.  Unknown keys are skipped; a known key given twice is refused.
-/

structure Mismatch where
  expected : String
deriving DecidableEq, Repr

def Mismatch.message (m : Mismatch) : String :=
  "expected " ++ m.expected

abbrev Decoded (α : Type) := Except Mismatch α

def mismatch {α : Type} (expected : String) : Decoded α :=
  .error ⟨expected⟩

/-- The value of a known key, which may stand only once. -/
def uniqueMember (members : List (String × Json)) (key : String) :
    Decoded (Option Json) :=
  match members.filter fun m => m.1 == key with
  | [] => .ok none
  | [(_, value)] => .ok (some value)
  | _ => mismatch ("one member " ++ key)

def recordFields (keys : List String) : Json → Decoded (List (Option Json))
  | .object members => keys.mapM (uniqueMember members)
  | .array items =>
      if items.length ≤ keys.length then
        .ok (items.map some ++ List.replicate (keys.length - items.length) none)
      else mismatch ("an array of at most " ++ Nat.repr keys.length ++ " items")
  | _ => mismatch "an object"

def required {α : Type} (key : String) (decode : Json → Decoded α) :
    Option Json → Decoded α
  | some value => decode value
  | none => mismatch ("a member " ++ key)

def withDefault {α : Type} (default : α) (decode : Json → Decoded α) :
    Option Json → Decoded α
  | some value => decode value
  | none => .ok default

def optional {α : Type} (decode : Json → Decoded α) :
    Option Json → Decoded (Option α)
  | none => .ok none
  | some .null => .ok none
  | some value => (decode value).map some

def asString : Json → Decoded String
  | .string value => .ok value
  | _ => mismatch "a string"

def asNatural (limit : Nat) : Json → Decoded Nat
  | .natural value =>
      if value < limit then .ok value else mismatch "a smaller number"
  | _ => mismatch "an unsigned integer"

def asList {α : Type} (decode : Json → Decoded α) : Json → Decoded (List α)
  | .array items => items.mapM decode
  | _ => mismatch "an array"

def asMembers {α : Type} (decode : Json → Decoded α) :
    Json → Decoded (List (String × α))
  | .object members =>
    members.mapM fun (key, value) => do return (key, ← decode value)
  | _ => mismatch "an object"

end ReportDesk.Json
