/-!
# Unsigned decimal numbers below a limit

A number is an optional `+` and at least one ASCII digit.  Reading stops at
the first character that is no digit or that takes the value to the limit.
-/

namespace ReportDesk.Numeral

inductive UnsignedFault where
  | empty
  | invalidDigit
  | tooLarge
deriving DecidableEq, Repr

def UnsignedFault.message : UnsignedFault → String
  | .empty => "cannot parse integer from empty string"
  | .invalidDigit => "invalid digit found in string"
  | .tooLarge => "number too large to fit in target type"

def digitValue? (c : Char) : Option Nat :=
  if c.isDigit then some (c.toNat - '0'.toNat) else none

def readDigits (limit : Nat) : Nat → List Char → Except UnsignedFault Nat
  | value, [] => .ok value
  | value, c :: cs =>
      match digitValue? c with
      | none => .error .invalidDigit
      | some digit =>
          if value * 10 + digit < limit then
            readDigits limit (value * 10 + digit) cs
          else
            .error .tooLarge

def readUnsigned (limit : Nat) : List Char → Except UnsignedFault Nat
  | [] => .error .empty
  | ['+'] => .error .invalidDigit
  | '+' :: cs => readDigits limit 0 cs
  | cs => readDigits limit 0 cs

def word32 : Nat := Nat.pow 2 32

def word64 : Nat := Nat.pow 2 64

def padded (width n : Nat) : String :=
  let digits := Nat.repr n
  String.ofList (List.replicate (width - digits.length) '0') ++ digits

end ReportDesk.Numeral

namespace ReportDesk

/-! ## Calendar dates -/

structure Date where
  year : Int
  month : Nat
  day : Nat
deriving DecidableEq, Repr

namespace Date

/-- Years of four digits; a year outside `0000` to `9999` carries its sign. -/
def yearText (d : Date) : String :=
  let digits := Numeral.padded 4 d.year.natAbs
  if d.year < 0 then "-" ++ digits
  else if 9999 < d.year then "+" ++ digits
  else digits

def isoText (d : Date) : String :=
  d.yearText ++ "-" ++ Numeral.padded 2 d.month ++ "-" ++ Numeral.padded 2 d.day

end Date

end ReportDesk
