import ReportDesk.Numeral.Unsigned
import ReportDesk.Table.Cell
import ReportDesk.Table.Schema

/-!
# Rows

A row holds cells by column id.  A stored row has an id.
-/

namespace ReportDesk

abbrev RowId := Nat

def RowId.read (text : String) : Except Numeral.UnsignedFault RowId :=
  Numeral.readUnsigned Numeral.word64 (Text.trimChars text.toList)

def RowId.text (id : RowId) : String :=
  Nat.repr id

structure RowData where
  id : Option RowId
  cells : SortedMap String Cell
deriving DecidableEq

namespace RowData

def empty : RowData := ⟨none, .empty⟩

def toJson (d : RowData) : Json :=
  Json.objectOfPresent
    [("id", d.id.map .natural),
     ("cells", some
       (.object (d.cells.entries.map fun (k, c) => (k, c.toJson))))]

def ofJson (value : Json) : Json.Decoded RowData := do
  match ← Json.recordFields ["id", "cells"] value with
  | [id, cells] =>
      return { id := ← Json.optional (Json.asNatural Numeral.word64) id
               cells :=
                 .ofList (← Json.withDefault []
                   (Json.asMembers Cell.ofJson) cells) }
  | _ => Json.mismatch "a row"

end RowData

structure Row where
  id : Option RowId
  schema : Schema
  cells : SortedMap String Cell
deriving DecidableEq

namespace Row

def new (schema : Schema) : Row := ⟨none, schema, .empty⟩

def ofData (schema : Schema) (data : RowData) : Row :=
  ⟨data.id, schema, data.cells⟩

def toData (r : Row) : RowData :=
  ⟨r.id, r.cells⟩

def table (r : Row) : String :=
  r.schema.sheetName

def cell? (r : Row) (column : String) : Option Cell :=
  r.cells.get? column

def read (r : Row) (column : String) (part : Cell.Part) : String :=
  ((r.cell? column).map fun c => c.read part).getD ""

def code (r : Row) (column : String) : String :=
  r.read column .code

def label (r : Row) (column : String) : String :=
  r.read column .label

def put (r : Row) (column : String) (cell : Cell) : Row :=
  { r with cells := r.cells.insert column cell }

def putCode (r : Row) (column code : String) : Row :=
  r.put column (.plain code)

def remove (r : Row) (column : String) : Row :=
  { r with cells := r.cells.erase column }

def write (r : Row) (column value header : String) : Row :=
  let cell := (r.cell? column).getD .blank
  match Header.target header with
  | .label => r.put column { cell with label := some value }
  | .code => r.put column { cell with code := value }
  | .both => r.put column ⟨value, some value⟩

/-! ## Look-up after each operation -/

@[simp] theorem cell?_put_self (r : Row) (column : String) (cell : Cell) :
    (r.put column cell).cell? column = some cell := by
  simp [put, cell?]

theorem cell?_put_of_ne (r : Row) {column column' : String} (cell : Cell)
    (h : column' ≠ column) :
    (r.put column cell).cell? column' = r.cell? column' := by
  simp [put, cell?, SortedMap.get?_insert_of_ne _ _ h]

@[simp] theorem cell?_remove_self (r : Row) (column : String) :
    (r.remove column).cell? column = none := by
  simp [remove, cell?]

theorem cell?_remove_of_ne (r : Row) {column column' : String}
    (h : column' ≠ column) :
    (r.remove column).cell? column' = r.cell? column' := by
  simp [remove, cell?, SortedMap.get?_erase_of_ne _ h]

end Row

end ReportDesk
