import ReportDesk.Json.Value
import ReportDesk.SortedMap
import ReportDesk.Text.Character

/-!
# Columns and schemas

A schema lists the columns of one table.  Its column ids are not blank and
pairwise distinct.  The revision tells definitions of the same table apart.
-/

namespace ReportDesk

structure Column where
  id : String
  label : Option String
  fields : SortedMap String String
deriving DecidableEq

namespace Column

def named (id : String) : Column := ⟨id, none, .empty⟩

def field? (c : Column) (header : String) : Option String :=
  c.fields.get? header

def toJson (c : Column) : Json :=
  Json.objectOfPresent
    [("id", some (.string c.id)),
     ("label", c.label.map .string),
     ("fields", some
       (.object (c.fields.entries.map fun (k, v) => (k, .string v))))]

def ofJson (value : Json) : Json.Decoded Column := do
  match ← Json.recordFields ["id", "label", "fields"] value with
  | [id, label, fields] =>
      return { id := ← Json.required "id" Json.asString id
               label := ← Json.optional Json.asString label
               fields :=
                 .ofList (← Json.withDefault []
                   (Json.asMembers Json.asString) fields) }
  | _ => Json.mismatch "a column"

end Column

inductive SchemaError where
  | duplicateColumn (table column : String)
  | emptyColumnId (table : String)
  | unknownTable (name : String)
deriving DecidableEq, Repr

def SchemaError.message : SchemaError → String
  | .duplicateColumn table column =>
      "duplicate column '" ++ column ++ "' in table " ++ table
  | .emptyColumnId table => "empty column id in table " ++ table
  | .unknownTable name => "unknown table schema: " ++ name

def Column.firstFault? (table : String) :
    List String → List Column → Option SchemaError
  | _, [] => none
  | seen, column :: rest =>
      if Text.isBlankText column.id then some (.emptyColumnId table)
      else if seen.contains column.id then
        some (.duplicateColumn table column.id)
      else firstFault? table (column.id :: seen) rest

structure Schema where
  sheetName : String
  columns : List Column
  revision : Nat
  faultless : Column.firstFault? sheetName [] columns = none
deriving DecidableEq

namespace Schema

def build (revision : Nat) (sheetName : String) (columns : List Column) :
    Except SchemaError Schema :=
  match h : Column.firstFault? sheetName [] columns with
  | none => .ok ⟨sheetName, columns, revision, h⟩
  | some fault => .error fault

def stamp (s : Schema) (revision : Nat) : Schema :=
  { s with revision }

def column? (s : Schema) (id : String) : Option Column :=
  s.columns.find? fun column => column.id == id

def contains (s : Schema) (id : String) : Bool :=
  (s.column? id).isSome

def formula (s : Schema) (column header : String) : String :=
  ((s.column? column).bind fun c => c.field? header).getD ""

def columnsWith (s : Schema) (header : String) : List Column :=
  s.columns.filter fun column => (column.field? header).isSome

def toJson (s : Schema) : Json :=
  .object [("sheetName", .string s.sheetName),
    ("columns", .array (s.columns.map Column.toJson))]

def ofJson (revision : Nat) (value : Json) : Json.Decoded Schema := do
  match ← Json.recordFields ["sheetName", "columns"] value with
  | [sheetName, columns] =>
      let sheetName ← Json.required "sheetName" Json.asString sheetName
      let columns ← Json.withDefault [] (Json.asList Column.ofJson) columns
      match build revision sheetName columns with
      | .ok schema => return schema
      | .error fault =>
        Json.mismatch ("a schema without faults: " ++ fault.message)
  | _ => Json.mismatch "a schema"

end Schema

/-! ## The registry of loaded schemas -/

/--
The loaded schemas by sheet name.  `lastRevision` is the greatest revision
given so far; a revision is never given twice.
-/
structure Registry where
  schemas : SortedMap String Schema
  lastRevision : Nat

namespace Registry

def empty : Registry := ⟨.empty, 0⟩

def define (r : Registry) (sheetName : String) (columns : List Column) :
    Except SchemaError (Schema × Registry) :=
  match Schema.build (r.lastRevision + 1) sheetName columns with
  | .ok schema => .ok (schema, { r with lastRevision := r.lastRevision + 1 })
  | .error fault => .error fault

/-- Loads a schema under a fresh revision, in place of one of the same table. -/
def load (r : Registry) (schema : Schema) : Schema × Registry :=
  let schema := schema.stamp (r.lastRevision + 1)
  (schema, ⟨r.schemas.insert schema.sheetName schema, r.lastRevision + 1⟩)

def get (r : Registry) (name : String) : Except SchemaError Schema :=
  match r.schemas.get? name with
  | some schema => .ok schema
  | none => .error (.unknownTable name)

theorem get_eq_ok_iff {r : Registry} {name : String} {schema : Schema} :
    r.get name = .ok schema ↔ r.schemas.get? name = some schema := by
  unfold get
  cases r.schemas.get? name <;> simp

def contains (r : Registry) (name : String) : Bool :=
  r.schemas.contains name

def names (r : Registry) : List String :=
  r.schemas.keys

def size (r : Registry) : Nat :=
  r.schemas.size

end Registry

end ReportDesk
