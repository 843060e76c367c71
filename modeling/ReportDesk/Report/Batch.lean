import ReportDesk.Report.Repository

/-!
# Amended reports and their batches

The amendments of a data collection are sent together.  Once they have been
sent as one, the batch also names the aggregator that was sent for them.
-/

namespace ReportDesk.Report

def findAmended (repository : Repository) (dataCollection : String) :
    List Report :=
  repository.all.filter fun r =>
    r.dataCollection == dataCollection && r.status == .locallyValidated &&
      r.isAmendment

structure Batch where
  aggregator : Option Report
  reports : List Report
deriving DecidableEq

namespace Batch

def isEmpty (b : Batch) : Bool := b.reports.isEmpty

def size (b : Batch) : Nat := b.reports.length

def canBeSent (b : Batch) : Bool :=
  !b.isEmpty && b.reports.all fun r => r.status.canBeSent

def canBeSubmitted (b : Batch) : Bool :=
  !b.isEmpty && b.reports.all fun r => r.status.canBeSubmitted

def canBeRefreshed (b : Batch) : Bool :=
  !b.isEmpty && b.reports.any fun r => r.status.canBeRefreshed

def inProgress (dataCollection : String) (r : Report) : Bool :=
  r.dataCollection == dataCollection && r.isAmendment && !r.status.isFinalized

/--
The batch of a data collection.  With an aggregator in progress it is the
aggregator's reports; otherwise every visible amendment that left draft.
-/
def load (repository : Repository) (dataCollection : String) : Batch :=
  let visible :=
    repository.all.filter fun r => r.isVisible && inProgress dataCollection r
  let aggregator :=
    repository.all.find? fun r => r.isAggregator && inProgress dataCollection r
  match aggregator.bind Report.id with
  | some id =>
    ⟨aggregator, visible.filter fun r => r.aggregatorRowId == some id⟩
  | none => ⟨aggregator, visible.filter fun r => r.status != .draft⟩

end Batch

end ReportDesk.Report

namespace ReportDesk.Report.Aggregator

/-!
## Aggregator reports

An aggregator stands for the reports of one data collection that are sent
together.
-/

def senderSuffix : String := "_AGGR"

/-- The greatest number among the versions; zero when none is a number. -/
def highestVersion (reports : List Report) : Nat :=
  (reports.filterMap fun r => Version.number? r.version).foldl max 0

def forReports (schema : Schema) (first : Report) (reports : List Report) :
    Report :=
  let dataCollection := first.dataCollection
  ((((((Report.new schema).setKind .aggregation).setText
    Columns.dataCollection dataCollection).setText
    Columns.year first.year).setText
    Columns.senderId (dataCollection ++ senderSuffix)).setText
    Columns.version (Version.ofNumber (highestVersion reports))).setStatus
      .locallyValidated

def create (repository : Repository) (reports : List Report) :
    Except Error (Report × Repository) :=
  match reports with
  | [] => .error .emptyBatch
  | first :: _ =>
      match reports.find? fun r => r.dataCollection != first.dataCollection with
      | some other =>
          .error
            (.mixedDataCollections first.dataCollection other.dataCollection)
      | none =>
          let (aggregator, _, repository) :=
            repository.insert (forReports repository.schema first reports)
          .ok (aggregator, repository)

end ReportDesk.Report.Aggregator

namespace ReportDesk.Report

/-!
## Spreading a status over reports

A fan-out is a plan: reports to replace, then rows to remove.  Making the plan
does not touch the store.
-/

structure FanOut where
  updates : List Report
  deletions : List RowId
deriving DecidableEq

namespace FanOut

/-- The reports take the aggregator's status and point at it. -/
def adopt (aggregator : Report) (reports : List Report) : Except Error FanOut :=
  match aggregator.id with
  | none => .error (.unsaved aggregator.senderId)
  | some id =>
      .ok ⟨reports.map fun r =>
        (r.setStatus aggregator.status).setAggregatorId (some id.text), []⟩

/--
The reports take the status of a refreshed aggregator.  When it is finalized
they are detached, and the stored versions of the aggregator are removed.
-/
def follow (aggregator : Report) (reports versions : List Report) : FanOut :=
  if aggregator.status.isFinalized then
    ⟨reports.map fun r => (r.setStatus aggregator.status).setAggregatorId none,
      versions.filterMap Report.id⟩
  else
    ⟨reports.map fun r => r.setStatus aggregator.status, []⟩

def assign (status : Status) (reports : List Report) : FanOut :=
  ⟨reports.map fun r => r.setStatus status, []⟩

def withDeletions (plan : FanOut) (ids : List RowId) : FanOut :=
  { plan with deletions := plan.deletions ++ ids }

def updateAll : List Report → Repository → Except Error Unit × Repository
  | [], repository => (.ok (), repository)
  | report :: rest, repository =>
      match repository.update report with
      | .ok repository => updateAll rest repository
      | .error error => (.error error, repository)

def deleteAll (ids : List RowId) (repository : Repository) : Repository :=
  ids.foldl (fun repository id => (repository.delete id).2) repository

/--
Replaces the reports and then removes the rows.  A failure leaves the reports
that were replaced before it, and removes nothing.
-/
def commit (plan : FanOut) (repository : Repository) :
    Except Error (List Report) × Repository :=
  match updateAll plan.updates repository with
  | (.ok (), repository) =>
    (.ok plan.updates, deleteAll plan.deletions repository)
  | (.error error, repository) => (.error error, repository)

end FanOut

end ReportDesk.Report
