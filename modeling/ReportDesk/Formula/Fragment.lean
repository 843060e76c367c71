import ReportDesk.Formula.Settings
import ReportDesk.Table.Cell
import ReportDesk.Text.Scan

/-!
# Fragments of a formula

A fragment is a part of a formula that stands for a value.  It knows its own
text and the bytes that it covers in the text it was found in.
-/

namespace ReportDesk.Formula

/-!
## Named constants

A formula names a constant by `%NAME`.  Some constants come from the date, the
others from the settings; two more are read from the row itself.
-/

abbrev Keywords := SortedMap String String

namespace Keywords

def today : String := "TODAY"
def currentYear : String := "CURRENT_YEAR"
def currentMonth : String := "CURRENT_MONTH"

/-- The constants of one day; those of the settings take precedence. -/
def forDay (settings : Settings) (day : Date) : Keywords :=
  settings.keywords.entries.foldl
    (fun table entry => table.insert entry.1 entry.2)
    (.ofList
      [(today, day.isoText),
       (currentYear, toString day.year),
       (currentMonth, Nat.repr day.month)])

end Keywords

inductive RowKeyword where
  | rowId
  | tableName
deriving DecidableEq, Repr

namespace RowKeyword

def name : RowKeyword → String
  | .rowId => "ROW_ID"
  | .tableName => "TABLE_NAME"

def all : List RowKeyword := [.rowId, .tableName]

def ofName? (name : String) : Option RowKeyword :=
  all.find? fun keyword => keyword.name == name

end RowKeyword

/-! ## Errors of formulas -/

inductive Arity where
  | exactly (n : Nat)
  | atLeast (n : Nat)
deriving DecidableEq, Repr

namespace Arity

def accepts : Arity → Nat → Bool
  | .exactly n, count => count == n
  | .atLeast n, count => n ≤ count

def text : Arity → String
  | .exactly n => Nat.repr n
  | .atLeast n => "at least " ++ Nat.repr n

end Arity

inductive Error where
  | unclosedCall (text : String)
  | malformedCall (text : String)
  | malformedRelation (text : String)
  | wrongArity (text : String) (expected : Arity) (found : Nat)
  | invalidNumber (text operand : String)
  | unsupportedDigest (algorithm : String)
  | unknownFunction (name : String)
  | cyclicDependency (table : String) (path : List String)
deriving DecidableEq, Repr

def pathText (path : List String) : String :=
  String.intercalate " -> " path

def Error.message : Error → String
  | .unclosedCall text => "missing closing parenthesis in " ++ text
  | .malformedCall text => "wrong function formula: " ++ text
  | .malformedRelation text => "wrong relation formula: " ++ text
  | .wrongArity text expected found =>
      "wrong number of parameters " ++ text ++ ". Expected " ++ expected.text ++
        ", found " ++ Nat.repr found
  | .invalidNumber text operand =>
      "wrong parameters for " ++ text ++ ": '" ++ operand ++ "' is not a number"
  | .unsupportedDigest algorithm => "unsupported hash algorithm: " ++ algorithm
  | .unknownFunction name => "function not supported: " ++ name
  | .cyclicDependency table path =>
      "cyclic dependency between columns of " ++ table ++ ": " ++ pathText path

/-! ## Fragments -/

inductive Comparator where
  | equal
  | notEqual
deriving DecidableEq, Repr

namespace Comparator

def symbol : Comparator → String
  | .equal => "=="
  | .notEqual => "!="

/-- White space at the ends of the operands does not matter. -/
def holds (c : Comparator) (lhs rhs : String) : Bool :=
  let same := Text.trim lhs == Text.trim rhs
  match c with
  | .equal => same
  | .notEqual => !same

end Comparator

inductive Reference where
  | keyword (name : String)
  | rowKeyword (keyword : RowKeyword)
  | column (column : String) (part : Cell.Part)
  | relation (parent field : String) (part : Cell.Part)
  | comparison (lhs : String) (comparator : Comparator) (rhs : String)
  | call (function : String) (operands : List String)
deriving DecidableEq, Repr

def Reference.usesRow : Reference → Bool
  | .rowKeyword _ => true
  | .column .. => true
  | .relation .. => true
  | _ => false

structure Fragment where
  reference : Reference
  text : String
  start : Nat
deriving DecidableEq, Repr

namespace Fragment

def stop (f : Fragment) : Nat :=
  f.start + Text.byteLength f.text.toList

def ofOccurrence {α : Type} (reference : α → Reference)
    (o : Text.Occurrence α) : Fragment :=
  ⟨reference o.value, String.ofList o.covered, o.start⟩

/--
Writes what `render` gives for each fragment between the gaps of the source.
The cursor is the number of bytes already copied.
-/
def spliceFrom (render : Fragment → String) :
    Nat → List Char → List Fragment → List Char
  | _, rest, [] => rest
  | cursor, rest, f :: fs =>
      Text.takeBytes (f.start - cursor) rest ++ (render f).toList ++
        spliceFrom render f.stop (Text.dropBytes (f.stop - cursor) rest) fs

def splice (source : String) (render : Fragment → String)
    (fragments : List Fragment) : String :=
  String.ofList (spliceFrom render 0 source.toList fragments)

end Fragment

end ReportDesk.Formula
