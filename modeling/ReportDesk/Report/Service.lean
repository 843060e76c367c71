import ReportDesk.Report.Basic

/-!
# The remote data collection service

The service is seen through three requests.  It is a machine with a state of
its own, so that the life cycle can be followed whatever the service answers.
-/

namespace ReportDesk.Report

inductive ServiceError where
  | unavailable (reason : String)
  | rejected (senderId reason : String)
  | notFound (senderId : String)
deriving DecidableEq, Repr

def ServiceError.message : ServiceError → String
  | .unavailable reason => "remote service unavailable: " ++ reason
  | .rejected senderId reason =>
      "remote service rejected " ++ senderId ++ ": " ++ reason
  | .notFound senderId => "no remote dataset for " ++ senderId

structure Receipt where
  messageId : String
  datasetId : String
  status : Status
deriving DecidableEq, Repr

structure Service (σ : Type) where
  fetchStatus : Report → σ → Except ServiceError Status × σ
  send : Report → σ → Except ServiceError Receipt × σ
  submit : Report → σ → Except ServiceError Status × σ

inductive Request where
  | fetchStatus (senderId : String)
  | send (senderId : String)
  | submit (senderId : String)
deriving DecidableEq, Repr

/-! ## A service that follows a script -/

structure Script where
  statuses : SortedMap String Status
  sendStatus : Status
  submitStatus : Status
  failure : Option ServiceError
  sent : Nat

namespace Script

def standard : Script :=
  ⟨.empty, .uploaded, .submitted, none, 0⟩

def setStatus (s : Script) (senderId : String) (status : Status) : Script :=
  { s with statuses := s.statuses.insert senderId status }

def answer {α : Type} (s : Script) (reply : Except ServiceError α × Script) :
    Except ServiceError α × Script :=
  match s.failure with
  | some failure => (.error failure, s)
  | none => reply

def service : Service Script where
  fetchStatus report s :=
    s.answer <|
      match s.statuses.get? report.senderId with
      | some status => (.ok status, s)
      | none => (.error (.notFound report.senderId), s)
  send report s :=
    let number := Nat.repr (s.sent + 1)
    s.answer
      (.ok ⟨"MSG-" ++ number, "DS-" ++ number, s.sendStatus⟩,
        { s with sent := s.sent + 1 }.setStatus report.senderId s.sendStatus)
  submit report s :=
    s.answer (.ok s.submitStatus, s.setStatus report.senderId s.submitStatus)

end Script

end ReportDesk.Report
