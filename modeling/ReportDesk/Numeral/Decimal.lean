import ReportDesk.Numeral.Unsigned

/-!
# Decimal numbers in operands

A decimal has an optional sign, digits with at most one point, at least one
digit, and an optional exponent part.  Sums are taken in binary floating point
and written without an exponent part.
-/

namespace ReportDesk.Numeral.Binary64

/-!
## Binary floating-point numbers of 64 bits

A finite positive number is `significand * 2 ^ exponent`.  The numbers are
read from exact fractions, rounded to the nearest one with ties to even.
-/

def leastExponent : Int := -1074

def infinityBits : Nat := 0x7FF0000000000000

def roundDiv (num den : Nat) : Nat :=
  let quotient := num / den
  let rest := 2 * (num % den)
  if den < rest || (den == rest && quotient % 2 == 1) then quotient + 1
  else quotient

def floorLog2 (num den : Nat) : Int :=
  let guess : Int := (num.log2 : Int) - (den.log2 : Int)
  let fits :=
    if 0 ≤ guess then den * Nat.pow 2 guess.toNat ≤ num
    else den ≤ num * Nat.pow 2 (-guess).toNat
  if fits then guess else guess - 1

/-- The bits of the number nearest to a fraction with a positive denominator. -/
def nearestBits (num den : Nat) : Nat :=
  if num = 0 then 0
  else
    let exponent := max leastExponent (floorLog2 num den - 52)
    let significand :=
      if 0 ≤ exponent then roundDiv num (den * Nat.pow 2 exponent.toNat)
      else roundDiv (num * Nat.pow 2 (-exponent).toNat) den
    min infinityBits
      ((exponent - leastExponent).toNat * Nat.pow 2 52 + significand)

def decode (bits : Nat) : Nat × Int :=
  let field := bits / Nat.pow 2 52 % Nat.pow 2 11
  let fraction := bits % Nat.pow 2 52
  if field = 0 then (fraction, leastExponent)
  else (fraction + Nat.pow 2 52, leastExponent + (field - 1 : Nat))

end ReportDesk.Numeral.Binary64

namespace ReportDesk.Numeral

/-!
## The shortest decimal digits of a floating-point number

Of all decimals that round to the number, the shortest is taken; of those with
equally many digits, the nearest, and the larger one when two are equally
near.
-/

structure Scaled where
  digits : Nat
  exponent : Int
deriving DecidableEq, Repr

namespace Shortest

structure Neighbourhood where
  low : Nat
  value : Nat
  high : Nat
  denominator : Nat
  closed : Bool

def neighbourhood (significand : Nat) (exponent : Int) : Neighbourhood :=
  let below :=
    if significand == Nat.pow 2 52 && exponent != Binary64.leastExponent then 1
    else 2
  let up := Nat.pow 2 exponent.toNat
  { low := (4 * significand - below) * up
    value := 4 * significand * up
    high := (4 * significand + 2) * up
    denominator := 4 * Nat.pow 2 (-exponent).toNat
    closed := significand % 2 == 0 }

def Neighbourhood.contains (n : Neighbourhood) (digits : Nat) (exponent : Int) :
    Bool :=
  let num := digits * Nat.pow 10 exponent.toNat * n.denominator
  let scale := Nat.pow 10 (-exponent).toNat
  if n.closed then n.low * scale ≤ num && num ≤ n.high * scale
  else n.low * scale < num && num < n.high * scale

/--
The largest `k` with `10 ^ k ≤ num / den`, near a guess from the binary
logarithms.
-/
def floorLog10 (num den : Nat) : Int :=
  let guess : Int := ((num.log2 : Int) - (den.log2 : Int)) * 30103 / 100000 + 1
  let reached (k : Int) : Bool :=
    den * Nat.pow 10 k.toNat ≤ num * Nat.pow 10 (-k).toNat
  if reached guess then guess
  else if reached (guess - 1) then guess - 1
  else guess - 2

/-- The decimal on the grid of `10 ^ exponent` that rounds to the number. -/
def onGrid? (n : Neighbourhood) (exponent : Int) : Option Scaled :=
  let num := n.value * Nat.pow 10 (-exponent).toNat
  let den := n.denominator * Nat.pow 10 exponent.toNat
  let down := num / den
  let hasDown := down != 0 && n.contains down exponent
  let hasUp := n.contains (down + 1) exponent
  let nearerUp := den ≤ 2 * (num % den)
  if hasUp && (!hasDown || nearerUp) then some ⟨down + 1, exponent⟩
  else if hasDown then some ⟨down, exponent⟩
  else none

def search (n : Neighbourhood) : Nat → Int → Scaled
  | 0, exponent =>
      ⟨n.value * Nat.pow 10 (-exponent).toNat /
        (n.denominator * Nat.pow 10 exponent.toNat),
        exponent⟩
  | tries + 1, exponent =>
      match onGrid? n exponent with
      | some found => found
      | none => search n tries (exponent - 1)

end Shortest

/--
The shortest decimal that rounds to `significand * 2 ^ exponent`.  The first
grid is coarser than the number itself, as the number may round up to it.
-/
def shortest (significand : Nat) (exponent : Int) : Scaled :=
  let n := Shortest.neighbourhood significand exponent
  Shortest.search n 18 (Shortest.floorLog10 n.value n.denominator + 1)

def Scaled.positional (s : Scaled) : String :=
  let digits := Nat.toDigits 10 s.digits
  if 0 ≤ s.exponent then
    String.ofList (digits ++ List.replicate s.exponent.toNat '0')
  else
    let places := (-s.exponent).toNat
    let filled := List.replicate (places + 1 - digits.length) '0' ++ digits
    let whole := filled.length - places
    String.ofList (filled.take whole ++ '.' :: filled.drop whole)

/-! ## Decimals -/

structure Decimal where
  negative : Bool
  digits : Nat
  exponent : Int
deriving DecidableEq, Repr

namespace Decimal

private def digitsValue (cs : List Char) : Nat :=
  cs.foldl (fun value c => value * 10 + (c.toNat - '0'.toNat)) 0

def readExponent? : List Char → Option Int
  | [] => some 0
  | marker :: cs =>
      if marker == 'e' || marker == 'E' then
        let (negative, digits) :=
          match cs with
          | '+' :: rest => (false, rest)
          | '-' :: rest => (true, rest)
          | _ => (false, cs)
        if digits.isEmpty || !digits.all Char.isDigit then none
        else
          some (if negative then -(digitsValue digits) else digitsValue digits)
      else none

def readMagnitude? (negative : Bool) (cs : List Char) : Option Decimal :=
  let whole := cs.takeWhile Char.isDigit
  let rest := cs.dropWhile Char.isDigit
  let (fraction, rest) :=
    match rest with
    | '.' :: tail => (tail.takeWhile Char.isDigit, tail.dropWhile Char.isDigit)
    | _ => ([], rest)
  if whole.isEmpty && fraction.isEmpty then none
  else
    (readExponent? rest).map fun exponent =>
      ⟨negative, digitsValue (whole ++ fraction), exponent - fraction.length⟩

def read? (cs : List Char) : Option Decimal :=
  match cs with
  | '+' :: rest => readMagnitude? false rest
  | '-' :: rest => readMagnitude? true rest
  | _ => readMagnitude? false cs

/--
The bits of the nearest floating-point number.  A decimal of more than 400
places on either side of the point is beyond the range.
-/
def bits (d : Decimal) : Nat :=
  let order := (Nat.toDigits 10 d.digits).length + d.exponent
  let magnitude :=
    if d.digits = 0 then 0
    else if 400 < order then Binary64.infinityBits
    else if order < -400 then 0
    else Binary64.nearestBits (d.digits * Nat.pow 10 d.exponent.toNat)
      (Nat.pow 10 (-d.exponent).toNat)
  if d.negative then Nat.pow 2 63 + magnitude else magnitude

def isFinite (d : Decimal) : Bool :=
  d.bits % Nat.pow 2 63 != Binary64.infinityBits

def toFloat (d : Decimal) : Float :=
  Float.ofBits d.bits.toUInt64

end Decimal

def readFinite? (cs : List Char) : Option Float :=
  match Decimal.read? cs with
  | some d => if d.isFinite then some d.toFloat else none
  | none => none

/-- The shortest digits without an exponent part; zero has no sign. -/
def floatText (x : Float) : String :=
  let bits := x.toBits.toNat
  let magnitude := bits % Nat.pow 2 63
  let sign := if bits = magnitude then "" else "-"
  if magnitude = 0 then "0"
  else if Binary64.infinityBits < magnitude then "NaN"
  else if magnitude = Binary64.infinityBits then sign ++ "inf"
  else
    let (significand, exponent) := Binary64.decode magnitude
    sign ++ (shortest significand exponent).positional

end ReportDesk.Numeral
