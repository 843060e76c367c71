import ReportDesk.Numeral.Unsigned
import ReportDesk.Text.Character

/-!
# Dates and times in TOML

A moment has a date, a time of day or both; one with both may also tell how
far its clock is from universal time.  A moment is written in one form, while
the reader takes several: seconds may be absent, and letters may be small.
-/

namespace ReportDesk.Toml

structure TimeOfDay where
  hour : Nat
  minute : Nat
  second : Nat
  nanosecond : Nat
deriving DecidableEq, Repr

inductive ClockOffset where
  | universal
  | minutes (count : Int)
deriving DecidableEq, Repr

structure DateTime where
  date : Option Date
  time : Option TimeOfDay
  offset : Option ClockOffset
deriving DecidableEq, Repr

/-! ## Writing -/

def TimeOfDay.text (t : TimeOfDay) : String :=
  let digits := (Numeral.padded 9 t.nanosecond).toList
  let fraction := (digits.reverse.dropWhile (· == '0')).reverse
  Numeral.padded 2 t.hour ++ ":" ++ Numeral.padded 2 t.minute ++ ":" ++
    Numeral.padded 2 t.second ++
    if fraction.isEmpty then "" else "." ++ String.ofList fraction

/-- A difference of no minutes is written with a plus sign. -/
def ClockOffset.text : ClockOffset → String
  | .universal => "Z"
  | .minutes count =>
      (if count < 0 then "-" else "+") ++
        Numeral.padded 2 (count.natAbs / 60) ++ ":" ++
        Numeral.padded 2 (count.natAbs % 60)

def DateTime.text (m : DateTime) : String :=
  let date := (m.date.map Date.isoText).getD ""
  let time := (m.time.map TimeOfDay.text).getD ""
  let separator := if m.date.isSome && m.time.isSome then "T" else ""
  date ++ separator ++ time ++ (m.offset.map ClockOffset.text).getD ""

/-! ## Reading -/

def fixedNumber? (count : Nat) (cs : List Char) : Option (Nat × List Char) :=
  let digits := cs.take count
  if digits.length == count && digits.all Char.isDigit then
    some (Text.digitsValue 10 digits, cs.drop count)
  else none

def daysInMonth (year month : Nat) : Nat :=
  if month == 2 then
    if year % 4 == 0 && (year % 100 != 0 || year % 400 == 0) then 29 else 28
  else if month == 4 || month == 6 || month == 9 || month == 11 then 30
  else 31

def readDate? (cs : List Char) : Option (Date × List Char) := do
  let (year, rest) ← fixedNumber? 4 cs
  let rest ← ['-'].isPrefixOf? rest
  let (month, rest) ← fixedNumber? 2 rest
  let rest ← ['-'].isPrefixOf? rest
  let (day, rest) ← fixedNumber? 2 rest
  if 1 ≤ month ∧ month ≤ 12 ∧ 1 ≤ day ∧ day ≤ daysInMonth year month then
    some (⟨year, month, day⟩, rest)
  else none

/--
The nanoseconds after a point, which may be absent; digits after the ninth do
not count.
-/
def readFraction? : List Char → Option (Nat × List Char)
  | '.' :: rest =>
      let digits := rest.takeWhile Char.isDigit
      let nine := digits.take 9
      if digits.isEmpty then none
      else
        some (Text.digitsValue 10 nine * Nat.pow 10 (9 - nine.length),
          rest.dropWhile Char.isDigit)
  | rest => some (0, rest)

def readSeconds? : List Char → Option (Nat × Nat × List Char)
  | ':' :: rest => do
      let (second, rest) ← fixedNumber? 2 rest
      let (nanosecond, rest) ← readFraction? rest
      if second ≤ 60 then some (second, nanosecond, rest) else none
  | rest => some (0, 0, rest)

def readTime? (cs : List Char) : Option (TimeOfDay × List Char) := do
  let (hour, rest) ← fixedNumber? 2 cs
  let rest ← [':'].isPrefixOf? rest
  let (minute, rest) ← fixedNumber? 2 rest
  let (second, nanosecond, rest) ← readSeconds? rest
  if hour ≤ 23 ∧ minute ≤ 59 then
    some (⟨hour, minute, second, nanosecond⟩, rest)
  else none

def readDifference? (sign : Int) (cs : List Char) :
    Option (ClockOffset × List Char) := do
  let (hour, rest) ← fixedNumber? 2 cs
  let rest ← [':'].isPrefixOf? rest
  let (minute, rest) ← fixedNumber? 2 rest
  if hour ≤ 23 ∧ minute ≤ 59 then
    some (.minutes (sign * (hour * 60 + minute)), rest)
  else none

def readOffset? : List Char → Option (Option ClockOffset)
  | [] => some none
  | ['Z'] => some (some .universal)
  | ['z'] => some (some .universal)
  | '+' :: rest => ending (readDifference? 1 rest)
  | '-' :: rest => ending (readDifference? (-1) rest)
  | _ => none
where
  ending : Option (ClockOffset × List Char) → Option (Option ClockOffset)
    | some (offset, []) => some (some offset)
    | _ => none

def DateTime.read? (cs : List Char) : Option DateTime :=
  match readDate? cs with
  | some (date, []) => some ⟨some date, none, none⟩
  | some (date, separator :: rest) =>
      if separator == 'T' || separator == 't' || separator == ' ' then do
        let (time, rest) ← readTime? rest
        return ⟨some date, some time, ← readOffset? rest⟩
      else none
  | none =>
      match readTime? cs with
      | some (time, []) => some ⟨none, some time, none⟩
      | _ => none

end ReportDesk.Toml
