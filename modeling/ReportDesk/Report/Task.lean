import ReportDesk.Report.Exchange

/-!
# Background tasks

A task does not fail: it ends with one update, which tells its result or why
it was terminated.
-/

namespace ReportDesk.Report

variable {σ : Type}

inductive Task where
  | refresh (report : Report)
  | findAmended (dataCollection : String)
  | send (batch : Batch)

namespace Task

def title : Task → String
  | .refresh _ => "refresh status"
  | .findAmended _ => "find amended reports"
  | .send _ => "send batch"

inductive Result where
  | refreshed (report : Report)
  | amended (batch : Batch)
  | sent (sent : Sent)

inductive Update where
  | finished (result : Result)
  | terminated (task : String) (error : Error)

def step (service : Service σ) : Task → Step σ Result
  | .refresh report => return .refreshed (← refreshStatus service report)
  | .findAmended dataCollection =>
      return .amended (Batch.load (← Step.repository) dataCollection)
  | .send batch => return .sent (← sendBatch service batch)

def run (service : Service σ) (task : Task) (desk : Desk σ) : Update × Desk σ :=
  match (task.step service).perform desk with
  | (.ok result, desk) => (.finished result, desk)
  | (.error error, desk) =>
      let event := Log.Event.taskTerminated task.title error.message
      (.terminated task.title error,
        { desk with events := desk.events ++ [event] })

end Task

end ReportDesk.Report
