import ReportDesk.Formula.Function
import ReportDesk.Formula.Recogniser
import ReportDesk.Table.Store

/-!
# Evaluating one formula against a row

A formula passes through fixed stages: constants, what the row is, references
to columns, relations, comparisons, and the functions one after the other.
Each stage looks for fragments of one kind and replaces every occurrence of a
fragment's text by the fragment's value before the next stage looks at the
text.
-/

namespace ReportDesk

/-!
## Fresh identifiers

A source of identifiers splits into child sources, so that computations which
know nothing of each other draw identifiers that differ.
-/

structure IdSource where
  seed : UInt64
deriving DecidableEq, Repr

namespace IdSource

def scramble (x : UInt64) : UInt64 :=
  let x := (x ^^^ (x >>> 30)) * 0xbf58476d1ce4e5b9
  let x := (x ^^^ (x >>> 27)) * 0x94d049bb133111eb
  x ^^^ (x >>> 31)

def child (s : IdSource) (index : Nat) : IdSource :=
  ⟨scramble (s.seed + 0x9e3779b97f4a7c15 * (index + 1).toUInt64)⟩

private def hexDigits (count n : Nat) : String :=
  let digits := Nat.toDigits 16 (n % Nat.pow 16 count)
  String.ofList (List.replicate (count - digits.length) '0' ++ digits)

def uuid (s : IdSource) : String :=
  let high := (scramble (s.seed ^^^ 0x5851f42d4c957f2d)).toNat
  let low := (scramble (s.seed ^^^ 0x14057b7ef767814f)).toNat
  hexDigits 8 (high / Nat.pow 2 32) ++ "-" ++
    hexDigits 4 (high / Nat.pow 2 16) ++ "-4" ++ hexDigits 3 high ++ "-" ++
    hexDigits 4 (0x8000 + low / Nat.pow 2 48 % 0x4000) ++ "-" ++
    hexDigits 12 low

end IdSource

end ReportDesk

namespace ReportDesk.Formula

/-! ## Stages -/

structure Environment where
  settings : Settings
  today : Date
  store : Store
  ids : IdSource

namespace Environment

def keywords (env : Environment) : Keywords :=
  Keywords.forDay env.settings env.today

def child (env : Environment) (index : Nat) : Environment :=
  { env with ids := env.ids.child index }

end Environment

/-! ### The value of a fragment -/

/--
A part of the parent row's field.  The row names its parent by the code of the
column called like the parent table; without such a row the value is empty.
-/
def relationValue (env : Environment) (row : Row) (parent field : String)
    (part : Cell.Part) : Logged Error String :=
  let link := Text.trim (row.code parent)
  if link.isEmpty then pure ""
  else
    match RowId.read link with
    | .error _ => do
        .log (.linkUnreadable row.table parent link)
        return ""
    | .ok id =>
        match env.store.get? parent id with
        | none => do
            .log (.parentMissing parent id)
            return ""
        | some parentRow => pure (parentRow.read field part)

def rowKeywordValue (row : Row) : RowKeyword → String
  | .rowId => (row.id.map RowId.text).getD ""
  | .tableName => row.table

/-- A column that the schema does not have is empty. -/
def columnValue (row : Row) (column : String) (part : Cell.Part) : String :=
  if row.schema.contains column then row.read column part else ""

def fragmentValue (env : Environment) (row : Row) (f : Fragment) :
    Logged Error String :=
  match f.reference with
  | .keyword name => pure ((env.keywords.get? name).getD "")
  | .rowKeyword keyword => pure (rowKeywordValue row keyword)
  | .column column part => pure (columnValue row column part)
  | .relation parent field part => relationValue env row parent field part
  | .comparison lhs comparator rhs =>
      pure (env.settings.truthText (comparator.holds lhs rhs))
  | .call function operands =>
      callByName env.settings env.ids.uuid f.text function operands

/-! ### The stages -/

def substitute (value : Fragment → Logged Error String) :
    List Fragment → List Char → Logged Error (List Char)
  | [], text => pure text
  | f :: fs, text => do
      substitute value fs
        (Text.replaceAll f.text.toList (← value f).toList text)

inductive Stage where
  | keywords
  | rowKeywords
  | columns
  | relations
  | comparisons
  | calls (function : Function)
deriving DecidableEq, Repr

namespace Stage

def all : List Stage :=
  [.keywords, .rowKeywords, .columns, .relations, .comparisons] ++
    Function.all.map .calls

def fragments (env : Environment) (text : String) :
    Stage → Except Error (List Fragment)
  | .keywords => .ok (findKeywords env.keywords text)
  | .rowKeywords => .ok (findRowKeywords text)
  | .columns => .ok (findColumns text)
  | .relations => findRelations text
  | .comparisons =>
      .ok (findComparisons .equal text ++ findComparisons .notEqual text)
  | .calls function => findCalls function.name text

/--
The name under which the log shows the text after a stage.  The two stages of
keywords are shown as one, and a function only where it is called.
-/
def shownAs (found : List Fragment) : Stage → Option String
  | .keywords => none
  | .rowKeywords => some "keywords"
  | .columns => some "columns"
  | .relations => some "relations"
  | .comparisons => some "comparators"
  | .calls function => if found.isEmpty then none else some function.name

def run (env : Environment) (row : Row) (traced : Bool) (stage : Stage)
    (text : String) : Logged Error String := do
  let found ← .ofExcept (stage.fragments env text)
  let text :=
    String.ofList (← substitute (fragmentValue env row) found text.toList)
  match stage.shownAs found with
  | none => return text
  | some name => do
      .log (.stage traced name text)
      return text

def runAll (env : Environment) (row : Row) (traced : Bool) :
    List Stage → String → Logged Error String
  | [], text => pure text
  | stage :: rest, text => do
      runAll env row traced rest (← stage.run env row traced text)

theorem runAll_append (env : Environment) (row : Row) (traced : Bool)
    (first second : List Stage) (text : String) :
    runAll env row traced (first ++ second) text =
      runAll env row traced first text >>= runAll env row traced second := by
  induction first generalizing text with
  | nil => simp [runAll]
  | cons stage rest ih => simp [runAll, ih]

end Stage

def evaluate (env : Environment) (row : Row) (traced : Bool)
    (formula : String) : Logged Error String :=
  if Text.isBlankText formula then pure ""
  else do return Text.trim (← Stage.runAll env row traced Stage.all formula)

def solveText (env : Environment) (row : Row) (text : String) :
    Logged Error String :=
  evaluate env row false text

/-- The value of a column's formula under a header; empty without a formula. -/
def solveColumn (env : Environment) (row : Row) (column header : String) :
    Logged Error String := do
  let formula := row.schema.formula column header
  let solved ←
    evaluate env row (env.settings.traceColumn == some column) formula
  .log (.columnEvaluated row.table column header formula solved)
  return solved

end ReportDesk.Formula
