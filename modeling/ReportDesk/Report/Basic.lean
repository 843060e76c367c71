import ReportDesk.Report.Status
import ReportDesk.Table.Row

/-!
# Reports

A report is a row of the report table, read and written through the columns
that its life cycle knows.
-/

namespace ReportDesk

structure Report where
  row : Row
deriving DecidableEq

namespace Report

/-! ## Columns -/

namespace Columns

def year : String := "reportYear"
def month : String := "reportMonth"
def dataCollection : String := "dcCode"
def country : String := "country"
def aggregatorId : String := "aggregatorId"
def kind : String := "reportType"
def senderId : String := "reportSenderId"
def messageId : String := "reportMessageId"
def lastMessageId : String := "reportLastMessageId"
def lastModifyingMessageId : String := "reportLastModifyingMessageId"
def lastValidationMessageId : String := "reportLastValidationMessageId"
def datasetId : String := "reportDatasetId"
def status : String := "reportStatus"
def previousStatus : String := "reportPreviousStatus"
def version : String := "reportVersion"

def all : List String :=
  [year, month, dataCollection, country, aggregatorId, kind, senderId,
   messageId, lastMessageId, lastModifyingMessageId, lastValidationMessageId,
   datasetId, status, previousStatus, version]

end Columns

def tableName : String := "Report"

def schema : Schema where
  sheetName := tableName
  columns := Columns.all.map Column.named
  revision := 1
  faultless := by decide

/-! ## Reading -/

def id (r : Report) : Option RowId := r.row.id

def text (r : Report) (column : String) : String := r.row.code column

def version (r : Report) : String := r.text Columns.version
def senderId (r : Report) : String := r.text Columns.senderId
def datasetId (r : Report) : String := r.text Columns.datasetId
def messageId (r : Report) : String := r.text Columns.messageId
def lastMessageId (r : Report) : String := r.text Columns.lastMessageId

def lastModifyingMessageId (r : Report) : String :=
  r.text Columns.lastModifyingMessageId

def lastValidationMessageId (r : Report) : String :=
  r.text Columns.lastValidationMessageId

def dataCollection (r : Report) : String := r.text Columns.dataCollection
def year (r : Report) : String := r.text Columns.year
def month (r : Report) : String := r.text Columns.month

def isBaseline (r : Report) : Bool := Version.isBaseline r.version
def isAmendment (r : Report) : Bool := Version.isAmendment r.version

def status (r : Report) : Status := .ofText (r.text Columns.status)

/-- The status before the last change; `none` when there was no change. -/
def previousStatus (r : Report) : Option Status :=
  let text := r.text Columns.previousStatus
  if Text.isBlankText text then none else some (.ofText text)

def isEditable (r : Report) : Bool := r.status.isEditable

def aggregatorId (r : Report) : Option String :=
  let text := Text.trim (r.text Columns.aggregatorId)
  if text.isEmpty then none else some text

def aggregatorRowId (r : Report) : Option RowId :=
  r.aggregatorId.bind fun text => (RowId.read text).toOption

def isAggregated (r : Report) : Bool := r.aggregatorId.isSome

def kind (r : Report) : Kind := .ofText (r.text Columns.kind)

def isAggregator (r : Report) : Bool := r.kind == .aggregation

/-- Only monthly reports are shown to the user. -/
def isVisible (r : Report) : Bool := r.kind == .monthly

/-! ## Writing -/

def setText (r : Report) (column value : String) : Report :=
  ⟨r.row.putCode column value⟩

/-- Sets the status and keeps the one it replaces. -/
def setStatus (r : Report) (status : Status) : Report :=
  (r.setText Columns.previousStatus r.status.text).setText Columns.status
    status.text

def makeEditable (r : Report) : Report :=
  r.setStatus .draft

/-- Sets the aggregator; a blank id removes it. -/
def setAggregatorId (r : Report) (id : Option String) : Report :=
  match id.map Text.trim with
  | none => ⟨r.row.remove Columns.aggregatorId⟩
  | some id =>
      if id.isEmpty then ⟨r.row.remove Columns.aggregatorId⟩
      else r.setText Columns.aggregatorId id

def setKind (r : Report) (kind : Kind) : Report :=
  r.setText Columns.kind kind.text

def new (schema : Schema) : Report := ⟨.new schema⟩

end Report

end ReportDesk
