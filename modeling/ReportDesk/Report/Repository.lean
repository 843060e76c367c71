import ReportDesk.Report.Service
import ReportDesk.Table.Store

/-!
# Stored reports
-/

namespace ReportDesk.Report

/-! ## Errors of the report life cycle -/

inductive Intent where
  | send
  | submit
deriving DecidableEq, Repr

def Intent.verb : Intent → String
  | .send => "send"
  | .submit => "submit"

inductive Error where
  | service (error : ServiceError)
  | store (error : StoreError)
  | emptyBatch
  | mixedDataCollections (expected found : String)
  | invalidTransition (senderId : String) (status : Status) (intent : Intent)
  | missingAggregator (aggregatorId : String)
  | unsaved (senderId : String)
deriving DecidableEq, Repr

namespace Error

def message : Error → String
  | .service error => error.message
  | .store error => error.message
  | .emptyBatch => "no reports to process"
  | .mixedDataCollections expected found =>
      "cannot aggregate reports of different data collections (" ++ expected ++
        " and " ++ found ++ ")"
  | .invalidTransition senderId status intent =>
      "cannot " ++ intent.verb ++ " report " ++ senderId ++ " in status " ++
        status.text
  | .missingAggregator aggregatorId =>
      "aggregator report " ++ aggregatorId ++ " not found"
  | .unsaved senderId => "report " ++ senderId ++ " is not stored"

def userMessage : Error → String
  | .service (.unavailable _) =>
      "The data collection service could not be reached. Try again later."
  | .service error => "The data collection service refused: " ++ error.message
  | .store error => "Local storage error: " ++ error.message
  | .emptyBatch => "There are no reports to process."
  | .invalidTransition _ status intent =>
      "Cannot " ++ intent.verb ++ " a report in status " ++ status.text ++ "."
  | error => error.message

end Error

/-! ## Repositories -/

structure Repository where
  schema : Schema
  store : Store

namespace Repository

def empty : Repository := ⟨Report.schema, .empty⟩

def table (r : Repository) : String := r.schema.sheetName

def all (r : Repository) : List Report :=
  (r.store.all r.table).map .mk

def get? (r : Repository) (id : RowId) : Option Report :=
  (r.store.get? r.table id).map .mk

def withCode (r : Repository) (column code : String) : List Report :=
  (r.store.withCode r.table column code).map .mk

def withAggregator (r : Repository) (id : RowId) : List Report :=
  r.withCode Columns.aggregatorId id.text

def versions (r : Repository) (senderId : String) : List Report :=
  r.withCode Columns.senderId senderId

def insert (r : Repository) (report : Report) : Report × RowId × Repository :=
  let (row, id, store) := r.store.insert report.row
  (⟨row⟩, id, { r with store })

def update (r : Repository) (report : Report) : Except Error Repository :=
  match report.id with
  | none => .error (.unsaved report.senderId)
  | some _ =>
      match r.store.update report.row with
      | .ok store => .ok { r with store }
      | .error error => .error (.store error)

def delete (r : Repository) (id : RowId) : Bool × Repository :=
  let (removed, store) := r.store.delete r.table id
  (removed, { r with store })

end Repository

end ReportDesk.Report
