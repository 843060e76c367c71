import ReportDesk.Json.Value
import ReportDesk.Text.Character

/-!
# Reading JSON text

The whole text must be one value.  Strings may hold no raw control
characters, and numbers no leading zeros.
-/

namespace ReportDesk.Json

def isSpace (c : Char) : Bool :=
  c == ' ' || c == '\n' || c == '\t' || c == '\r'

def skipSpaces (cs : List Char) : List Char :=
  cs.dropWhile isSpace

/-! ## Strings -/

inductive Piece where
  | char (c : Char)
  | escaped (unit : Nat)

def shortEscape? : Char → Option Char
  | '"' => some '"'
  | '\\' => some '\\'
  | '/' => some '/'
  | 'b' => some '\x08'
  | 'f' => some '\x0c'
  | 'n' => some '\n'
  | 'r' => some '\r'
  | 't' => some '\t'
  | _ => none

def readPieces : List Char → Option (List Piece × List Char)
  | [] => none
  | '"' :: rest => some ([], rest)
  | '\\' :: 'u' :: a :: b :: c :: d :: rest => do
      let unit ← Text.hexNumber? [a, b, c, d]
      let (pieces, rest) ← readPieces rest
      return (.escaped unit :: pieces, rest)
  | '\\' :: e :: rest => do
      let c ← shortEscape? e
      let (pieces, rest) ← readPieces rest
      return (.char c :: pieces, rest)
  | c :: rest =>
      if c.toNat < 0x20 then none
      else do
        let (pieces, rest) ← readPieces rest
        return (.char c :: pieces, rest)

/--
The characters of the pieces.  Two escaped numbers may be the halves of one
character; a half that stands alone is none.
-/
def joinPieces : List Piece → Option (List Char)
  | [] => some []
  | .char c :: pieces => do return c :: (← joinPieces pieces)
  | .escaped high :: pieces =>
      if 0xD800 ≤ high ∧ high < 0xDC00 then
        match pieces with
        | .escaped low :: pieces =>
            if 0xDC00 ≤ low ∧ low < 0xE000 then do
              let c :=
                Char.ofNat (0x10000 + (high - 0xD800) * 0x400 + (low - 0xDC00))
              return c :: (← joinPieces pieces)
            else none
        | _ => none
      else if 0xDC00 ≤ high ∧ high < 0xE000 then none
      else do return Char.ofNat high :: (← joinPieces pieces)

def readString (cs : List Char) : Option (Option String × List Char) := do
  let (pieces, rest) ← readPieces cs
  return ((joinPieces pieces).map String.ofList, rest)

/-! ## Numbers -/

def readDigits (cs : List Char) : Option (List Char × List Char) :=
  let digits := cs.takeWhile Char.isDigit
  if digits.isEmpty then none else some (digits, cs.dropWhile Char.isDigit)

def readFraction : List Char → Option (List Char × List Char)
  | '.' :: rest =>
    (readDigits rest).map fun (digits, rest) => ('.' :: digits, rest)
  | cs => some ([], cs)

def readExponent : List Char → Option (List Char × List Char)
  | [] => some ([], [])
  | marker :: rest =>
      if marker == 'e' || marker == 'E' then
        let (sign, rest) :=
          match rest with
          | '+' :: tail => (['+'], tail)
          | '-' :: tail => (['-'], tail)
          | _ => ([], rest)
        (readDigits rest).map fun (digits, rest) =>
          (marker :: sign ++ digits, rest)
      else
        some ([], marker :: rest)

def readNumber (cs : List Char) : Option (Json × List Char) := do
  let (sign, unsigned) :=
    match cs with
    | '-' :: rest => (['-'], rest)
    | _ => ([], cs)
  let (whole, rest) ← readDigits unsigned
  if whole.head? == some '0' && whole.length != 1 then none
  else
    let (fraction, rest) ← readFraction rest
    let (exponent, rest) ← readExponent rest
    if sign.isEmpty && fraction.isEmpty && exponent.isEmpty then
      return (.natural
        (whole.foldl (fun n c => n * 10 + (c.toNat - '0'.toNat)) 0), rest)
    else
      return (.otherNumber
        (String.ofList (sign ++ whole ++ fraction ++ exponent)), rest)

/-! ## Values -/

def ofMembers (members : List (Option String × Json)) : Json :=
  if members.all fun m => m.1.isSome then
    .object (members.filterMap fun (key, value) => key.map fun k => (k, value))
  else .unreadable

mutual

def readValue : Nat → List Char → Option (Json × List Char)
  | 0, _ => none
  | fuel + 1, cs =>
      match skipSpaces cs with
      | 'n' :: 'u' :: 'l' :: 'l' :: rest => some (.null, rest)
      | 't' :: 'r' :: 'u' :: 'e' :: rest => some (.bool true, rest)
      | 'f' :: 'a' :: 'l' :: 's' :: 'e' :: rest => some (.bool false, rest)
      | '"' :: rest => do
          let (value, rest) ← readString rest
          return (value.elim .unreadable .string, rest)
      | '[' :: rest =>
          match skipSpaces rest with
          | ']' :: rest => some (.array [], rest)
          | rest => do
              let (items, rest) ← readItems fuel rest
              return (.array items, rest)
      | '{' :: rest =>
          match skipSpaces rest with
          | '}' :: rest => some (.object [], rest)
          | rest => do
              let (members, rest) ← readMembers fuel rest
              return (ofMembers members, rest)
      | cs => readNumber cs

def readItems : Nat → List Char → Option (List Json × List Char)
  | 0, _ => none
  | fuel + 1, cs => do
      let (item, rest) ← readValue fuel cs
      match skipSpaces rest with
      | ',' :: rest =>
          let (items, rest) ← readItems fuel rest
          return (item :: items, rest)
      | ']' :: rest => return ([item], rest)
      | _ => none

def readMembers :
    Nat → List Char → Option (List (Option String × Json) × List Char)
  | 0, _ => none
  | fuel + 1, cs =>
      match skipSpaces cs with
      | '"' :: rest => do
          let (key, rest) ← readString rest
          match skipSpaces rest with
          | ':' :: rest =>
              let (value, rest) ← readValue fuel rest
              match skipSpaces rest with
              | ',' :: rest =>
                  let (members, rest) ← readMembers fuel rest
                  return ((key, value) :: members, rest)
              | '}' :: rest => return ([(key, value)], rest)
              | _ => none
          | _ => none
      | _ => none

end

def read? (text : String) : Option Json :=
  let cs := text.toList
  match readValue (2 * cs.length + 2) cs with
  | some (value, rest) => if (skipSpaces rest).isEmpty then some value else none
  | none => none

end ReportDesk.Json
