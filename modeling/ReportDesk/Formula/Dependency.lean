import ReportDesk.Formula.Fragment
import ReportDesk.Table.Schema

/-!
# How many references stand behind a formula

A formula depends on the other columns of its table that it refers to.  Its
count adds up the references and the counts of the columns referred to, so a
column has a greater count than the columns it needs.
-/

namespace ReportDesk.Formula

/-! ## References -/

/-- The text of a reference to a column, up to the part; is the part known? -/
def recogniseReference (column : String) (_ : Option Char) (cs : List Char) :
    Text.Verdict Bool :=
  let opener := '%' :: column.toList ++ ['.']
  match opener.isPrefixOf? cs with
  | some after =>
      .found ("code".toList.isPrefixOf after || "label".toList.isPrefixOf after)
        opener.length
  | none => .pass

def countReferences (formula column : String) : Nat :=
  (Text.scan (recogniseReference column) formula.toList).countP fun o => o.value

/-! ## Counts -/

abbrev Counts := List ((String × String) × Nat)

/--
Adds the references of `formula` to the columns listed and the counts of those
columns, which `visit` finds.  The formula's own column is passed over.
-/
def addReferences (visit : Counts → String → Except Error Nat × Counts)
    (column formula : String) :
    List Column → Nat → Counts → Except Error Nat × Counts
  | [], total, counts => (.ok total, counts)
  | other :: rest, total, counts =>
      let references := countReferences formula other.id
      if other.id = column ∨ references = 0 then
        addReferences visit column formula rest total counts
      else
        match visit counts other.id with
        | (.ok below, counts) =>
            addReferences visit column formula rest
              (total + references + below) counts
        | (.error error, counts) => (.error error, counts)

/--
The count of a column, reached over the columns of `path`.  A column that the
path already holds closes a cycle.  A path without a cycle is no longer than
the list of columns, and `depth` bounds what may still be added to it.
-/
def countFrom (schema : Schema) (header : String) :
    Nat → List String → Counts → String → Except Error Nat × Counts
  | depth, path, counts, column =>
      match counts.lookup (column, header) with
      | some count => (.ok count, counts)
      | none =>
          if path.contains column then
            (.error (.cyclicDependency schema.sheetName (path ++ [column])),
              counts)
          else
            match depth with
            | 0 =>
              (.error (.cyclicDependency schema.sheetName (path ++ [column])),
                counts)
            | depth + 1 =>
                match addReferences
                    (countFrom schema header depth (path ++ [column])) column
                    (schema.formula column header) schema.columns 0 counts with
                | (.ok total, counts) =>
                  (.ok total, ((column, header), total) :: counts)
                | (.error error, counts) => (.error error, counts)

def countDependencies (schema : Schema) (header : String) (known : Counts)
    (column : String) : Except Error Nat × Counts :=
  countFrom schema header (schema.columns.length + 1) [] known column

/-! ## The memory of counts -/

structure TableCounts where
  revision : Nat
  counts : Counts
deriving DecidableEq

structure DependencyCache where
  tables : SortedMap String TableCounts
deriving DecidableEq

namespace DependencyCache

def empty : DependencyCache := ⟨.empty⟩

def known (cache : DependencyCache) (schema : Schema) : Counts :=
  match cache.tables.get? schema.sheetName with
  | some table => if table.revision = schema.revision then table.counts else []
  | none => []

def get? (cache : DependencyCache) (schema : Schema) (column header : String) :
    Option Nat :=
  (cache.known schema).lookup (column, header)

def dropTable (cache : DependencyCache) (table : String) : DependencyCache :=
  ⟨cache.tables.erase table⟩

def size (cache : DependencyCache) : Nat :=
  cache.tables.values.foldl (fun size table => size + table.counts.length) 0

/--
The count of a column.  What is learnt on the way is kept, also on failure;
what belongs to another revision of the table is forgotten.
-/
def count (cache : DependencyCache) (schema : Schema) (column header : String) :
    Except Error Nat × DependencyCache :=
  let (result, counts) :=
    countDependencies schema header (cache.known schema) column
  (result, ⟨cache.tables.insert schema.sheetName ⟨schema.revision, counts⟩⟩)

end DependencyCache

end ReportDesk.Formula
