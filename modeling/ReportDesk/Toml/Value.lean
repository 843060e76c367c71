import ReportDesk.Numeral.Decimal
import ReportDesk.Toml.DateTime

/-!
# TOML values

A table knows how it came about, since that decides what later lines of the
document may still add to it.
-/

namespace ReportDesk

inductive Toml.TableOrigin where
  /-- By the header of a table inside it. -/
  | implied
  /-- By a dotted key. -/
  | dotted
  /-- By its own header. -/
  | header
  /-- As a value between braces. -/
  | inlined
deriving DecidableEq, Repr

inductive Toml where
  | string (value : String)
  | scalar (literal : String)
  | dateTime (value : Toml.DateTime)
  | array (items : List Toml)
  | table (origin : Toml.TableOrigin) (entries : List (String × Toml))
  /-- The tables under one repeated header, the latest first. -/
  | tables (items : List (List (String × Toml)))
deriving Inhabited

namespace Toml

abbrev Entries := List (String × Toml)

def dateTimeKey : String := "$__toml_private_datetime"

/--
The entries of a table; a date or time is taken for a table of its text alone.
-/
def entries? : Toml → Option Entries
  | .table _ entries => some entries
  | .dateTime value => some [(dateTimeKey, .string value.text)]
  | _ => none

def replace (key : String) (value : Toml) (entries : Entries) : Entries :=
  entries.map fun entry => if entry.1 == key then (key, value) else entry

def store (key : String) (value : Toml) (entries : Entries) : Entries :=
  if (entries.lookup key).isSome then replace key value entries
  else entries ++ [(key, value)]

/-! ## Headers and dotted keys -/

/--
Changes the table that a path of headers leads to.  Tables on the way are
implied; of repeated tables the latest is entered.
-/
def withinHeader (change : Entries → Option Entries) :
    List String → Entries → Option Entries
  | [], entries => change entries
  | key :: path, entries =>
      match entries.lookup key with
      | none => do
          let inner ← withinHeader change path []
          return store key (.table .implied inner) entries
      | some (.table origin inner) =>
          if origin = .inlined then none
          else do
            return store key
              (.table origin (← withinHeader change path inner)) entries
      | some (.tables (latest :: earlier)) => do
          return store key
            (.tables ((← withinHeader change path latest) :: earlier)) entries
      | some _ => none

def openTable (key : String) (entries : Entries) : Option Entries :=
  match entries.lookup key with
  | none => some (store key (.table .header []) entries)
  | some (.table .implied inner) =>
    some (store key (.table .header inner) entries)
  | some _ => none

def appendTable (key : String) (entries : Entries) : Option Entries :=
  match entries.lookup key with
  | none => some (store key (.tables [[]]) entries)
  | some (.tables items) => some (store key (.tables ([] :: items)) entries)
  | some _ => none

/--
A dotted key may pass through a table.  The last table on its way must come
from a dotted key too; those before it may also be implied, or be the latest
under a repeated header.
-/
def allowsDottedKey (isLast : Bool) : TableOrigin → Bool
  | .dotted => true
  | .implied => !isLast
  | _ => false

def assign (value : Toml) : List String → Entries → Option Entries
  | [], _ => none
  | [key], entries =>
      if (entries.lookup key).isSome then none
      else some (store key value entries)
  | key :: path, entries =>
      match entries.lookup key with
      | none => do
          return store key (.table .dotted (← assign value path [])) entries
      | some (.table origin inner) =>
          if allowsDottedKey (path.length == 1) origin then do
            return store key (.table origin (← assign value path inner)) entries
          else none
      | some (.tables (latest :: earlier)) =>
          if path.length == 1 then none else do
            return store key
              (.tables ((← assign value path latest) :: earlier)) entries
      | some _ => none

end Toml

end ReportDesk

namespace ReportDesk.Toml

/-!
## Numbers, dates and truth values in TOML

A number must be one that can be held: an integer of 128 bits, with or without
a sign, or a floating-point number that is finite unless infinity is named.
-/

/-- Digits of one kind, with single underscores between digits. -/
def isDigitRun (isDigit : Char → Bool) : List Char → Bool
  | [] => false
  | [c] => isDigit c
  | c :: '_' :: rest => isDigit c && isDigitRun isDigit rest
  | c :: rest => isDigit c && isDigitRun isDigit rest

def withoutUnderscores (cs : List Char) : List Char :=
  cs.filter (· != '_')

def withoutSign : List Char → List Char
  | '+' :: rest => rest
  | '-' :: rest => rest
  | cs => cs

/-! ### Integers -/

/-- Digits of a base that stand for less than 2 ^ 128. -/
def isBasedInteger (base : Nat) (cs : List Char) : Bool :=
  isDigitRun (fun c => (Text.hexValue? c).any fun value => value < base) cs &&
    Text.digitsValue base (withoutUnderscores cs) < Nat.pow 2 128

/-- Decimal digits without leading zeros. -/
def isDecimalRun (cs : List Char) : Bool :=
  isDigitRun Char.isDigit cs && (cs.head? != some '0' || cs.length == 1)

def isInteger : List Char → Bool
  | '0' :: 'x' :: rest => isBasedInteger 16 rest
  | '0' :: 'o' :: rest => isBasedInteger 8 rest
  | '0' :: 'b' :: rest => isBasedInteger 2 rest
  | '-' :: rest =>
      isDecimalRun rest &&
        Text.digitsValue 10 (withoutUnderscores rest) ≤ Nat.pow 2 127
  | cs => isDecimalRun (withoutSign cs) && isBasedInteger 10 (withoutSign cs)

/-! ### Floating-point numbers -/

private def isExponentMark (c : Char) : Bool :=
  c == 'e' || c == 'E'

def isDecimalFraction (cs : List Char) : Bool :=
  let mantissa := cs.takeWhile fun c => !isExponentMark c
  let exponent := (cs.dropWhile fun c => !isExponentMark c).drop 1
  let whole := mantissa.takeWhile (· != '.')
  let fraction := (mantissa.dropWhile (· != '.')).drop 1
  let hasExponent := mantissa.length != cs.length
  let hasPoint := whole.length != mantissa.length
  (hasExponent || hasPoint) && isDecimalRun whole &&
    (!hasPoint || isDigitRun Char.isDigit fraction) &&
    (!hasExponent || isDigitRun Char.isDigit (withoutSign exponent))

def isFloat (cs : List Char) : Bool :=
  let unsigned := withoutSign cs
  unsigned == "inf".toList || unsigned == "nan".toList ||
    (isDecimalFraction unsigned &&
      (Numeral.Decimal.read? (withoutUnderscores unsigned)).any
        Numeral.Decimal.isFinite)

/-! ### Scalars -/

def isPlainScalar (cs : List Char) : Bool :=
  cs == "true".toList || cs == "false".toList || isInteger cs || isFloat cs

def scalarOf? (cs : List Char) : Option Toml :=
  if isPlainScalar cs then some (.scalar (String.ofList cs))
  else (DateTime.read? cs).map .dateTime

end ReportDesk.Toml
