import ReportDesk.Formula.Fragment
import ReportDesk.Log.Event

/-!
# The functions of the formula language

Functions take texts and answer a text; they see the settings, but no row.
-/

namespace ReportDesk.Formula

inductive Function where
  | allTrue
  | anyTrue
  | sum
  | zeroPadding
  | rightTrim
  | leftTrim
  | choose
  | chooseNonEmpty
  | hash
  | next
deriving DecidableEq, Repr

namespace Function

def all : List Function :=
  [.allTrue, .anyTrue, .sum, .zeroPadding, .rightTrim, .leftTrim, .choose,
   .chooseNonEmpty, .hash, .next]

def name : Function → String
  | .allTrue => "AND"
  | .anyTrue => "OR"
  | .sum => "SUM"
  | .zeroPadding => "ZERO_PADDING"
  | .rightTrim => "RIGHT_TRIM"
  | .leftTrim => "LEFT_TRIM"
  | .choose => "IF"
  | .chooseNonEmpty => "IF_NOT_NULL"
  | .hash => "HASH"
  | .next => "NEXT"

def arity : Function → Arity
  | .allTrue => .atLeast 2
  | .anyTrue => .atLeast 2
  | .sum => .atLeast 2
  | .zeroPadding => .exactly 2
  | .rightTrim => .exactly 2
  | .leftTrim => .exactly 2
  | .choose => .exactly 3
  | .chooseNonEmpty => .exactly 3
  | .hash => .exactly 2
  | .next => .exactly 0

def summary : Function → String
  | .allTrue => "true when every operand is truthy"
  | .anyTrue => "true when any operand is truthy"
  | .sum => "numeric sum, empty when an operand is empty"
  | .zeroPadding => "left-pad text with zeros up to n characters"
  | .rightTrim => "keep the last n characters"
  | .leftTrim => "keep the first n characters"
  | .choose => "second operand if the condition is truthy, else the third"
  | .chooseNonEmpty =>
    "second operand if the condition is non-empty, else the third"
  | .hash =>
    "uppercase hex digest (MD5, SHA-1, SHA-224, SHA-256, SHA-384, SHA-512)"
  | .next => "random UUID"

def ofName? (name : String) : Option Function :=
  all.find? fun f => Text.equalIgnoringCase f.name name

/-! ## Numbers in operands -/

def greatestWidth : Nat := 65536

def greatestCount : Nat := Nat.pow 2 31 - 1

/-- A number of characters: 32 bits and not above the limit. -/
def readLength (text : String) (limit : Nat) (operand : String) :
    Except Error Nat :=
  match Numeral.readUnsigned Numeral.word32 (Text.trimChars operand.toList) with
  | .ok n => if n ≤ limit then .ok n else .error (.invalidNumber text operand)
  | .error _ => .error (.invalidNumber text operand)

/-- Adds the operands up to the first blank one; `none` when there is one. -/
def sumFrom (text : String) : Float → List String → Except Error (Option Float)
  | total, [] => .ok (some total)
  | total, operand :: rest =>
      if Text.isBlankText operand then .ok none
      else
        match Numeral.readFinite? (Text.trimChars operand.toList) with
        | some value => sumFrom text (total + value) rest
        | none => .error (.invalidNumber text operand)

/-! ## The texts of the functions -/

def padZeros (width : Nat) (text : String) : String :=
  String.ofList (List.replicate (width - text.toList.length) '0' ++ text.toList)

def keepFirst (count : Nat) (text : String) : String :=
  String.ofList (text.toList.take count)

def keepLast (count : Nat) (text : String) : String :=
  String.ofList (text.toList.drop (text.toList.length - count))

/--
The value of a function on operands of an accepted number.  `text` is the call
as it was written and `fresh` the identifier that the call may draw.
-/
def value (settings : Settings) (fresh text : String) :
    Function → List String → Logged Error String
  | .allTrue, operands =>
    pure (settings.truthText (operands.all settings.isTrue))
  | .anyTrue, operands =>
    pure (settings.truthText (operands.any settings.isTrue))
  | .sum, operands => do
      match ← .ofExcept (sumFrom text 0 operands) with
      | some total => return Numeral.floatText total
      | none =>
          .log (.blankSumOperand operands)
          return ""
  | .zeroPadding, [operand, width] => do
      return padZeros
        (← .ofExcept (readLength text greatestWidth width)) operand
  | .rightTrim, [operand, count] => do
      return keepLast
        (← .ofExcept (readLength text greatestCount count)) operand
  | .leftTrim, [operand, count] => do
      return keepFirst
        (← .ofExcept (readLength text greatestCount count)) operand
  | .choose, [condition, yes, no] =>
      pure (if settings.isTrue condition then yes else no)
  | .chooseNonEmpty, [condition, yes, no] =>
      pure (if condition.isEmpty then no else yes)
  | .hash, [algorithm, message] =>
      match Digest.Algorithm.ofName? algorithm with
      | some a => do
          .log (.hashing a message)
          return a.hexDigest message.toUTF8.toList
      | none => .fail (.unsupportedDigest (Text.trim algorithm))
  | .next, [] => pure fresh
  | f, operands => .fail (.wrongArity text f.arity operands.length)

def call (settings : Settings) (fresh text : String) (f : Function)
    (operands : List String) : Logged Error String :=
  if f.arity.accepts operands.length then f.value settings fresh text operands
  else .fail (.wrongArity text f.arity operands.length)

end Function

def callByName (settings : Settings) (fresh text name : String)
    (operands : List String) : Logged Error String :=
  match Function.ofName? name with
  | some f => f.call settings fresh text operands
  | none => .fail (.unknownFunction name)

end ReportDesk.Formula
