import ReportDesk.Toml.Value

/-!
# Reading TOML documents

A document is a list of lines: keys with values, and headers of tables.
-/

namespace ReportDesk.Toml

def greatestDepth : Nat := 80

/-! ## Blanks, comments and line ends -/

def isSpace (c : Char) : Bool :=
  c == ' ' || c == '\t'

def skipSpaces (cs : List Char) : List Char :=
  cs.dropWhile isSpace

def isPlainChar (c : Char) : Bool :=
  c == '\t' || (0x20 ≤ c.toNat && c.toNat != 0x7F)

def newline? : List Char → Option (List Char)
  | '\n' :: rest => some rest
  | '\r' :: '\n' :: rest => some rest
  | _ => none

def skipComment (cs : List Char) : List Char :=
  match skipSpaces cs with
  | '#' :: rest => rest.dropWhile isPlainChar
  | rest => rest

def endOfLine? (cs : List Char) : Option (List Char) :=
  match skipComment cs with
  | [] => some []
  | rest => newline? rest

def skipLines : Nat → List Char → List Char
  | 0, cs => skipComment cs
  | fuel + 1, cs =>
      match newline? (skipComment cs) with
      | some rest => skipLines fuel rest
      | none => skipComment cs

/-! ## Texts -/

def charOfHex? (digits : List Char) : Option Char := do
  let n ← Text.hexNumber? digits
  if n < 0xD800 ∨ (0xE000 ≤ n ∧ n < 0x110000) then some (Char.ofNat n) else none

def readEscape : List Char → Option (Char × List Char)
  | 'b' :: rest => some ('\x08', rest)
  | 't' :: rest => some ('\t', rest)
  | 'n' :: rest => some ('\n', rest)
  | 'f' :: rest => some ('\x0c', rest)
  | 'r' :: rest => some ('\r', rest)
  | 'e' :: rest => some ('\x1b', rest)
  | '"' :: rest => some ('"', rest)
  | '\\' :: rest => some ('\\', rest)
  | 'x' :: rest => hex 2 rest
  | 'u' :: rest => hex 4 rest
  | 'U' :: rest => hex 8 rest
  | _ => none
where
  hex (count : Nat) (cs : List Char) : Option (Char × List Char) :=
    if (cs.take count).length = count then
      (charOfHex? (cs.take count)).map fun c => (c, cs.drop count)
    else none

def readBasic : Nat → List Char → Option (List Char × List Char)
  | 0, _ => none
  | _, [] => none
  | _, '"' :: rest => some ([], rest)
  | fuel + 1, '\\' :: rest => do
      let (c, rest) ← readEscape rest
      let (cs, rest) ← readBasic fuel rest
      return (c :: cs, rest)
  | fuel + 1, c :: rest =>
      if isPlainChar c then do
        let (cs, rest) ← readBasic fuel rest
        return (c :: cs, rest)
      else none

def readLiteral : List Char → Option (List Char × List Char)
  | [] => none
  | '\x27' :: rest => some ([], rest)
  | c :: rest =>
      if isPlainChar c then do
        let (cs, rest) ← readLiteral rest
        return (c :: cs, rest)
      else none

/-- Up to two quotes may stand before the three that close a text. -/
def closeQuotes? (quote : Char) (cs : List Char) :
    Option (List Char × List Char) :=
  let quotes := (cs.takeWhile (· == quote)).length
  if quotes < 3 then none
  else
    let kept := min (quotes - 3) 2
    some (List.replicate kept quote, cs.drop (kept + 3))

def skipBlanks : List Char → List Char
  | ' ' :: rest => skipBlanks rest
  | '\t' :: rest => skipBlanks rest
  | '\n' :: rest => skipBlanks rest
  | '\r' :: '\n' :: rest => skipBlanks rest
  | cs => cs

/--
The text after the spaces and line ends that follow a backslash at a line's end.
-/
def skipFold? (cs : List Char) : Option (List Char) :=
  (newline? (skipSpaces cs)).map skipBlanks

def startsLineEnd (cs : List Char) : Bool :=
  (newline? cs).isSome

def readMultiline (quote : Char) (escapes : Bool) : Nat → List Char →
    Option (List Char × List Char)
  | 0, _ => none
  | _, [] => none
  | fuel + 1, c :: rest =>
      if c == quote then
        match closeQuotes? quote (c :: rest) with
        | some closed => some closed
        | none => keep fuel c rest
      else if c == '\\' && escapes then
        match skipFold? rest with
        | some rest => readMultiline quote escapes fuel rest
        | none => do
            let (e, rest) ← readEscape rest
            keep fuel e rest
      else if isPlainChar c || startsLineEnd (c :: rest) then keep fuel c rest
      else none
where
  keep (fuel : Nat) (c : Char) (rest : List Char) :
      Option (List Char × List Char) :=
    (readMultiline quote escapes fuel rest).map fun (cs, rest) =>
      (c :: cs, rest)

/-- The line end right after the opening quotes does not count. -/
def dropFirstNewline (cs : List Char) : List Char :=
  (newline? cs).getD cs

def readText? : List Char → Option (String × List Char)
  | '"' :: '"' :: '"' :: rest =>
      (readMultiline '"' true (rest.length + 1) (dropFirstNewline rest)).map
        fun (cs, rest) => (String.ofList cs, rest)
  | '\x27' :: '\x27' :: '\x27' :: rest =>
      (readMultiline '\x27' false (rest.length + 1) (dropFirstNewline rest)).map
        fun (cs, rest) => (String.ofList cs, rest)
  | '"' :: rest =>
      (readBasic (rest.length + 1) rest).map fun (cs, rest) =>
        (String.ofList cs, rest)
  | '\x27' :: rest =>
    (readLiteral rest).map fun (cs, rest) => (String.ofList cs, rest)
  | _ => none

/-! ## Keys -/

def isBareKeyChar (c : Char) : Bool :=
  c.isAlphanum || c == '_' || c == '-'

def readKeyPart? (cs : List Char) : Option (String × List Char) :=
  match cs with
  | '"' :: rest =>
      (readBasic (rest.length + 1) rest).map fun (cs, rest) =>
        (String.ofList cs, rest)
  | '\x27' :: rest =>
    (readLiteral rest).map fun (cs, rest) => (String.ofList cs, rest)
  | _ =>
      let name := cs.takeWhile isBareKeyChar
      if name.isEmpty then none
      else some (String.ofList name, cs.dropWhile isBareKeyChar)

/--
The parts of a key between its points; there may be at most as many as the
limit.
-/
def readKey : Nat → List Char → Option (List String × List Char)
  | 0, _ => none
  | limit + 1, cs => do
      let (part, rest) ← readKeyPart? (skipSpaces cs)
      match skipSpaces rest with
      | '.' :: rest =>
          let (parts, rest) ← readKey limit rest
          return (part :: parts, rest)
      | rest => return ([part], rest)

def readAssignment? (cs : List Char) : Option (List String × List Char) := do
  let (key, rest) ← readKey greatestDepth cs
  match rest with
  | '=' :: rest => return (key, skipSpaces rest)
  | _ => none

/-! ## Values -/

def isScalarChar (c : Char) : Bool :=
  c.isAlphanum || c == '_' || c == '-' || c == '+' || c == '.' || c == ':'

/-- A scalar; a date may be followed by a space and a time. -/
def readScalar? (cs : List Char) : Option (Toml × List Char) :=
  let word := cs.takeWhile isScalarChar
  let rest := cs.dropWhile isScalarChar
  let second := (rest.drop 1).takeWhile isScalarChar
  let both :=
    if rest.head? == some ' ' then DateTime.read? (word ++ ' ' :: second)
    else none
  match both with
  | some value => some (.dateTime value, (rest.drop 1).dropWhile isScalarChar)
  | none => (scalarOf? word).map fun value => (value, rest)

mutual

/--
A value; every step of the reading takes one unit of fuel.  Of brackets,
`room` more may be opened inside each other.
-/
def readValue : Nat → Nat → List Char → Option (Toml × List Char)
  | 0, _, _ => none
  | fuel + 1, room, cs =>
      match cs with
      | '[' :: rest =>
          if room = 0 then none else do
            let (items, rest) ←
              readItems fuel (room - 1) (skipLines rest.length rest)
            return (.array items, rest)
      | '{' :: rest =>
          if room = 0 then none else do
            let (entries, rest) ←
              readEntries fuel (room - 1) [] (skipLines rest.length rest)
            return (.table .inlined entries, rest)
      | _ =>
          match readText? cs with
          | some (text, rest) => some (.string text, rest)
          | none => readScalar? cs

def readItems : Nat → Nat → List Char → Option (List Toml × List Char)
  | 0, _, _ => none
  | _, _, ']' :: rest => some ([], rest)
  | fuel + 1, room, cs => do
      let (item, rest) ← readValue fuel room cs
      match skipLines rest.length rest with
      | ',' :: rest =>
          let (items, rest) ← readItems fuel room (skipLines rest.length rest)
          return (item :: items, rest)
      | ']' :: rest => return ([item], rest)
      | _ => none

/--
The entries of an inline table up to its closing brace; a comma may end the
list, and lines may end around every sign but the points of a key.
-/
def readEntries : Nat → Nat → Entries → List Char → Option (Entries × List Char)
  | 0, _, _, _ => none
  | _, _, entries, '}' :: rest => some (entries, rest)
  | fuel + 1, room, entries, cs => do
      let (key, rest) ← readKey greatestDepth cs
      let rest ← ['='].isPrefixOf? (skipLines rest.length rest)
      let (value, rest) ← readValue fuel room (skipLines rest.length rest)
      let entries ← assign value key entries
      match skipLines rest.length rest with
      | ',' :: rest =>
        readEntries fuel room entries (skipLines rest.length rest)
      | '}' :: rest => return (entries, rest)
      | _ => none

end

/-! ## Documents -/

def readHeader? (close : List Char) (cs : List Char) :
    Option (List String × List Char) := do
  let (key, rest) ← readKey greatestDepth cs
  return (key, ← close.isPrefixOf? rest)

structure Document where
  root : Entries
  path : List String

def readLine? (d : Document) (cs : List Char) : Option (Document × List Char) :=
  match cs with
  | '[' :: '[' :: rest => do
      let (key, rest) ← readHeader? [']', ']'] rest
      let root ← withinHeader
        (appendTable (key.getLastD "")) key.dropLast d.root
      return (⟨root, key⟩, rest)
  | '[' :: rest => do
      let (key, rest) ← readHeader? [']'] rest
      let root ← withinHeader (openTable (key.getLastD "")) key.dropLast d.root
      return (⟨root, key⟩, rest)
  | _ => do
      let (key, rest) ← readAssignment? cs
      let (value, rest) ← readValue (2 * rest.length + 2) greatestDepth rest
      let root ← withinHeader (assign value key) d.path d.root
      return ({ d with root }, rest)

def readLines : Nat → Document → List Char → Option Document
  | 0, d, cs => if (skipComment cs).isEmpty then some d else none
  | fuel + 1, d, cs =>
      match endOfLine? cs with
      | some [] => some d
      | some rest => readLines fuel d rest
      | none => do
          let (d, rest) ← readLine? d (skipSpaces cs)
          readLines fuel d (← endOfLine? rest)

def read? (text : String) : Option Entries :=
  let cs := text.toList
  let cs := if cs.head? == some '\uFEFF' then cs.drop 1 else cs
  (readLines (cs.length + 1) ⟨[], []⟩ cs).map Document.root

end ReportDesk.Toml
