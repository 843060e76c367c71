import ReportDesk.Digest.Algorithm
import ReportDesk.Log.Level
import ReportDesk.Table.Row

/-!
# Log events

An event is a value that says what happened; its level, message and fields are
read off it.
-/

namespace ReportDesk.Log

inductive Event where
  | schemaLoaded (table : String) (revision columns : Nat)
  | rowInserted (table : String) (id : RowId)
  | rowUpdated (table : String) (id : RowId)
  | workbookLoaded (tables : Nat)
  | stage (traced : Bool) (name value : String)
  | blankSumOperand (operands : List String)
  | hashing (algorithm : Digest.Algorithm) (value : String)
  | linkUnreadable (table parent link : String)
  | parentMissing (parent : String) (id : RowId)
  | columnEvaluated (table column header formula solved : String)
  | columnWritten (column : String) (dependencies : Nat) (value : String)
  | rowSolved (table header : String) (solved : Nat)
  | tableSolved (rows : Nat)
  | solveFinished (table : String) (rows : Nat)
  | aggregatorMissing (senderId aggregatorId : String)
  | taskTerminated (task error : String)
deriving DecidableEq, Repr

inductive FieldValue where
  | verbatim (text : String)
  | quoted (text : String)
  | quotedList (texts : List String)
  | number (n : Nat)

namespace Event

def level : Event → Level
  | .schemaLoaded .. => .debug
  | .rowInserted .. => .trace
  | .rowUpdated .. => .trace
  | .workbookLoaded .. => .debug
  | .stage traced .. => if traced then .debug else .trace
  | .blankSumOperand .. => .warn
  | .hashing .. => .debug
  | .linkUnreadable .. => .debug
  | .parentMissing .. => .debug
  | .columnEvaluated .. => .debug
  | .columnWritten .. => .debug
  | .rowSolved .. => .debug
  | .tableSolved .. => .debug
  | .solveFinished .. => .info
  | .aggregatorMissing .. => .warn
  | .taskTerminated .. => .warn

def origin : Event → Origin
  | .schemaLoaded .. => .model
  | .rowInserted .. => .model
  | .rowUpdated .. => .model
  | .workbookLoaded .. => .client
  | .stage .. => .formula
  | .blankSumOperand .. => .formula
  | .hashing .. => .formula
  | .linkUnreadable .. => .formula
  | .parentMissing .. => .formula
  | .columnEvaluated .. => .formula
  | .columnWritten .. => .formula
  | .rowSolved .. => .formula
  | .tableSolved .. => .client
  | .solveFinished .. => .program
  | .aggregatorMissing .. => .report
  | .taskTerminated .. => .report

def message : Event → String
  | .schemaLoaded .. => "schema loaded"
  | .rowInserted .. => "insert row"
  | .rowUpdated .. => "update row"
  | .workbookLoaded .. => "workbook loaded"
  | .stage .. => "formula stage"
  | .blankSumOperand .. => "an operand of SUM is empty, returning empty value"
  | .hashing .. => "computing HASH"
  | .linkUnreadable .. => "relation link is not a row id"
  | .parentMissing .. => "relation parent not found"
  | .columnEvaluated .. => "formula solved"
  | .columnWritten .. => "formula solved"
  | .rowSolved .. => "row formulas solved"
  | .tableSolved .. => "table solved"
  | .solveFinished .. => "solve finished"
  | .aggregatorMissing .. =>
    "aggregator not found, refreshing the report itself"
  | .taskTerminated .. => "task terminated"

def fields : Event → List (String × FieldValue)
  | .schemaLoaded table revision columns =>
      [("table", .verbatim table), ("revision", .number revision),
       ("columns", .number columns)]
  | .rowInserted table id => [("table", .quoted table), ("id", .number id)]
  | .rowUpdated table id => [("table", .quoted table), ("id", .number id)]
  | .workbookLoaded tables => [("tables", .number tables)]
  | .stage _ name value => [("stage", .quoted name), ("value", .quoted value)]
  | .blankSumOperand operands => [("operands", .quotedList operands)]
  | .hashing algorithm value =>
      [("algorithm", .verbatim algorithm.name), ("value", .verbatim value)]
  | .linkUnreadable table parent link =>
      [("table", .quoted table), ("parent", .quoted parent),
       ("link", .quoted link)]
  | .parentMissing parent id =>
    [("parent", .quoted parent), ("parent_id", .number id)]
  | .columnEvaluated table column header formula solved =>
      [("table", .quoted table), ("column", .quoted column),
       ("field_header", .quoted header), ("formula", .quoted formula),
       ("solved", .verbatim solved)]
  | .columnWritten column dependencies value =>
      [("column", .verbatim column), ("dependencies", .number dependencies),
       ("value", .verbatim value)]
  | .rowSolved table header solved =>
      [("table", .quoted table), ("field_header", .quoted header),
       ("solved", .number solved)]
  | .tableSolved rows => [("rows", .number rows)]
  | .solveFinished table rows =>
    [("table", .verbatim table), ("rows", .number rows)]
  | .aggregatorMissing senderId aggregatorId =>
      [("sender_id", .quoted senderId), ("aggregator_id", .quoted aggregatorId)]
  | .taskTerminated task error =>
    [("task", .verbatim task), ("error", .verbatim error)]

end Event

def Filter.passesEvent (f : Filter) (event : Event) : Bool :=
  (f.forOrigin event.origin).passes event.level

def warnings (events : List Event) : List String :=
  (events.filter fun event => event.level == .warn).map Event.message

end ReportDesk.Log

namespace ReportDesk

/-!
## Computations that log

A logged computation answers a value or an error, and tells the events up to
then.  `result` forgets the events and commutes with every construction.
-/

structure Logged (ε α : Type) where
  events : List Log.Event
  result : Except ε α

namespace Logged

variable {ε α β : Type}

instance : Monad (Logged ε) where
  pure value := ⟨[], .ok value⟩
  bind x f :=
    match x.result with
    | .ok value => ⟨x.events ++ (f value).events, (f value).result⟩
    | .error error => ⟨x.events, .error error⟩

instance : LawfulMonad (Logged ε) :=
  LawfulMonad.mk' (Logged ε)
    (fun x => by
      obtain ⟨events, result⟩ := x
      cases result with
      | error error => rfl
      | ok value => simp [Functor.map])
    (fun _ _ => rfl)
    (fun x f g => by
      obtain ⟨events, result⟩ := x
      cases result with
      | error error => rfl
      | ok value =>
          rcases h : f value with ⟨later, answer⟩
          cases answer <;> simp [bind, h])

def log (event : Log.Event) : Logged ε Unit := ⟨[event], .ok ()⟩

def fail (error : ε) : Logged ε α := ⟨[], .error error⟩

def ofExcept (result : Except ε α) : Logged ε α := ⟨[], result⟩

@[simp] theorem result_pure (value : α) :
    (pure value : Logged ε α).result = .ok value := rfl

@[simp] theorem result_bind (x : Logged ε α) (f : α → Logged ε β) :
    (x >>= f).result = x.result.bind fun value => (f value).result := by
  obtain ⟨events, result⟩ := x
  cases result <;> rfl

@[simp] theorem result_log (event : Log.Event) :
    (log event : Logged ε Unit).result = .ok () := rfl

@[simp] theorem result_fail (error : ε) :
    (fail error : Logged ε α).result = .error error := rfl

@[simp] theorem result_ofExcept (result : Except ε α) :
    (ofExcept result).result = result := rfl

end Logged

end ReportDesk
