import ReportDesk.Formula.Fragment
import ReportDesk.Json.Reader
import ReportDesk.Log.Event
import ReportDesk.Table.Store

/-!
# Workbooks

A workbook file gives the schemas of its tables and rows for them.  Loading it
fills a registry and a store.
-/

namespace ReportDesk

structure WorkbookFile where
  schemas : List Schema
  rows : SortedMap String (List RowData)

structure Workbook where
  registry : Registry
  store : Store

namespace Workbook

inductive Cause where
  | file (reason : String)
  | json (reason : String)
  | schema (error : SchemaError)
  | store (error : StoreError)
  | formula (error : Formula.Error)
  | settings (error : Formula.SettingsError)
  | noRow (id : RowId) (table : String)
deriving DecidableEq, Repr

def Cause.ownWords : Cause → Option String
  | .file _ => none
  | .json _ => none
  | .schema error => some error.message
  | .store error => some error.message
  | .formula error => some error.message
  | .settings error => some error.summary
  | .noRow id table => some ("no row " ++ id.text ++ " in table " ++ table)

def Cause.foreignWords : Cause → Option String
  | .file reason => some reason
  | .json reason => some reason
  | .settings error => some error.reason
  | _ => none

structure Failure where
  context : List String
  cause : Cause
deriving DecidableEq, Repr

def Failure.ownWords (f : Failure) : String :=
  String.intercalate ": " (f.context ++ f.cause.ownWords.toList)

def Failure.message (f : Failure) : String :=
  String.intercalate ": "
    (f.context ++ f.cause.ownWords.toList ++ f.cause.foreignWords.toList)

def Failure.within (f : Failure) (context : String) : Failure :=
  { f with context := context :: f.context }

end Workbook

namespace WorkbookFile

def ofJson (value : Json) : Json.Decoded WorkbookFile := do
  match ← Json.recordFields ["schemas", "rows"] value with
  | [schemas, rows] =>
      return {
        schemas := ← Json.withDefault [] (Json.asList (Schema.ofJson 0)) schemas
        rows := .ofList
          (← Json.withDefault []
            (Json.asMembers (Json.asList RowData.ofJson)) rows) }
  | _ => Json.mismatch "a workbook"

def read (text : String) : Except Workbook.Failure WorkbookFile :=
  let failure (reason : String) : Workbook.Failure :=
    ⟨["parse workbook JSON"], .json reason⟩
  match Json.read? text with
  | none => .error (failure "invalid JSON")
  | some value =>
      match ofJson value with
      | .ok file => .ok file
      | .error mismatch => .error (failure mismatch.message)

end WorkbookFile

namespace Workbook

def empty : Workbook := ⟨.empty, .empty⟩

def schema (w : Workbook) (table : String) : Except SchemaError Schema :=
  w.registry.get table

def loadSchemas (registry : Registry) (schemas : List Schema) : Registry :=
  schemas.foldl (fun registry schema => (registry.load schema).2) registry

def storeRows (schema : Schema) (store : Store) (rows : List RowData) : Store :=
  rows.foldl (fun store data => (store.insert (.ofData schema data)).2.2) store

def storeTables (registry : Registry) : List (String × List RowData) → Store →
    Except Failure Store
  | [], store => .ok store
  | (table, rows) :: rest, store =>
      match registry.get table with
      | .ok schema => storeTables registry rest (storeRows schema store rows)
      | .error error =>
        .error ⟨["rows given for table " ++ table], .schema error⟩

def ofFile (file : WorkbookFile) : Except Failure Workbook := do
  let registry := loadSchemas .empty file.schemas
  return ⟨registry, ← storeTables registry file.rows.entries .empty⟩

def read (text : String) : Except Failure Workbook := do
  ofFile (← WorkbookFile.read text)

def rows (w : Workbook) (table : String) (id : Option RowId) :
    Except Failure (List Row) :=
  match w.schema table with
  | .error error => .error ⟨[], .schema error⟩
  | .ok _ =>
      match id with
      | none => .ok (w.store.all table)
      | some id =>
          match w.store.get? table id with
          | some row => .ok [row]
          | none => .error ⟨[], .noRow id table⟩

/-! ## The log of loading -/

def schemaEvents : Nat → List Schema → List Log.Event
  | _, [] => []
  | revision, schema :: rest =>
      .schemaLoaded schema.sheetName revision schema.columns.length ::
        schemaEvents (revision + 1) rest

def rowEvents (schema : Schema) : Store → List RowData → List Log.Event
  | _, [] => []
  | store, data :: rest =>
      let (_, id, store) := store.insert (.ofData schema data)
      .rowInserted schema.sheetName id :: rowEvents schema store rest

def tableEvents (registry : Registry) :
    List (String × List RowData) → Store → List Log.Event
  | [], _ => []
  | (table, rows) :: rest, store =>
      match registry.get table with
      | .ok schema =>
          rowEvents schema store rows ++
            tableEvents registry rest (storeRows schema store rows)
      | .error _ => []

def loadEvents (file : WorkbookFile) : List Log.Event :=
  let registry := loadSchemas .empty file.schemas
  schemaEvents 1 file.schemas ++
    tableEvents registry file.rows.entries .empty ++
    match ofFile file with
    | .ok _ => [.workbookLoaded registry.size]
    | .error _ => []

end Workbook

end ReportDesk
