import ReportDesk.Report.Batch
import ReportDesk.Report.Desk

/-!
# Sending, submitting and refreshing

A batch of several reports goes through an aggregator, whose status its
reports follow until it is finalized.
-/

namespace ReportDesk.Report

variable {σ : Type}

/-! ## Sending -/

structure Sent where
  /-- The report that was sent: the only one, or the aggregator. -/
  target : Report
  receipt : Receipt
  reports : List Report
deriving DecidableEq

def withReceipt (report : Report) (receipt : Receipt) : Report :=
  (((report.setText Columns.messageId receipt.messageId).setText
    Columns.lastMessageId receipt.messageId).setText
    Columns.datasetId receipt.datasetId).setStatus receipt.status

def sendTarget : List Report → Step σ Report
  | [] => throw .emptyBatch
  | [report] => pure report
  | reports => do
      match Aggregator.create (← Step.repository) reports with
      | .ok (aggregator, repository) =>
          modify fun desk => { desk with repository }
          return aggregator
      | .error error => throw error

/-- The stored rows with the sender id of a report, other than its own. -/
def staleVersions (repository : Repository) (report : Report) : List RowId :=
  ((repository.versions report.senderId).filterMap Report.id).filter
    fun id => report.id != some id

def sendBatch (service : Service σ) (batch : Batch) : Step σ Sent := do
  match batch.reports.find? fun r => !r.status.canBeSent with
  | some blocked =>
    throw (.invalidTransition blocked.senderId blocked.status .send)
  | none =>
      let target ← sendTarget batch.reports
      let receipt ← Step.ask (.send target.senderId) (service.send target)
      let target := withReceipt target receipt
      Step.update target
      if target.isAggregator then
        let stale := staleVersions (← Step.repository) target
        match FanOut.adopt target batch.reports with
        | .ok plan =>
            let reports ← Step.change (plan.withDeletions stale).commit
            return ⟨target, receipt, reports⟩
        | .error error => throw error
      else
        return ⟨target, receipt, [target]⟩

/-! ## Submitting -/

def submitTarget (first : Report) : Step σ Report := do
  match first.aggregatorId with
  | none => return first
  | some aggregatorId =>
      match first.aggregatorRowId.bind (← Step.repository).get? with
      | some aggregator => return aggregator
      | none => throw (.missingAggregator aggregatorId)

def submitBatch (service : Service σ) (batch : Batch) : Step σ Status := do
  match batch.reports with
  | [] => throw .emptyBatch
  | first :: _ =>
      let target ← submitTarget first
      if target.status.canBeSubmitted then
        let status ← Step.ask (.submit target.senderId) (service.submit target)
        let target := target.setStatus status
        Step.update target
        let others := batch.reports.filter fun r => r.id != target.id
        let _ ← Step.change (FanOut.assign status others).commit
        return status
      else
        throw (.invalidTransition target.senderId target.status .submit)

/-! ## Refreshing -/

def refreshAggregator (service : Service σ) (aggregator : Report) :
    Step σ Report := do
  match aggregator.id with
  | none => throw (.unsaved aggregator.senderId)
  | some id =>
      let status ← Step.ask (.fetchStatus aggregator.senderId)
        (service.fetchStatus aggregator)
      let aggregator := aggregator.setStatus status
      Step.update aggregator
      let repository ← Step.repository
      let versions :=
        if status.isFinalized then repository.versions aggregator.senderId
        else []
      let plan :=
        FanOut.follow aggregator (repository.withAggregator id) versions
      let _ ← Step.change plan.commit
      return aggregator

def refreshAlone (service : Service σ) (report : Report) : Step σ Report := do
  let status ←
    Step.ask (.fetchStatus report.senderId) (service.fetchStatus report)
  let report := report.setStatus status
  Step.update report
  return report

/--
Refreshes the status of a report, through its aggregator when that is stored.
Answers the report whose status was fetched.
-/
def refreshStatus (service : Service σ) (report : Report) : Step σ Report := do
  match report.aggregatorId with
  | none => refreshAlone service report
  | some aggregatorId =>
      match report.aggregatorRowId.bind (← Step.repository).get? with
      | some aggregator => refreshAggregator service aggregator
      | none =>
          Step.log (.aggregatorMissing report.senderId aggregatorId)
          refreshAlone service report

end ReportDesk.Report
