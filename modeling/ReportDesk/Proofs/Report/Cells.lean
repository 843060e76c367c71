import ReportDesk.Proofs.Numeral.RoundTrip
import ReportDesk.Report.Basic

/-!
# What writing into a report keeps

Each column of a report is read back as it was written, and writing one column
leaves the others alone.  The columns that say what a report is, and its place
in the store, outlast every step of its life cycle.
-/

namespace ReportDesk.Report

/-! ## Columns -/

@[simp] theorem text_setText_self (r : Report) (column value : String) :
    (r.setText column value).text column = value := by
  simp [text, setText, Row.putCode, Row.code, Row.read, Cell.plain, Cell.read]

theorem text_setText_of_ne (r : Report) {column column' : String}
    (value : String) (h : column' ≠ column) :
    (r.setText column value).text column' = r.text column' := by
  simp [text, setText, Row.putCode, Row.code, Row.read,
    Row.cell?_put_of_ne _ _ h]

theorem text_setStatus_of_ne (r : Report) {column : String} (status : Status)
    (hstatus : column ≠ Columns.status)
    (hprevious : column ≠ Columns.previousStatus) :
    (r.setStatus status).text column = r.text column := by
  rw [setStatus, text_setText_of_ne _ _ hstatus,
    text_setText_of_ne _ _ hprevious]

theorem cell?_setText_of_ne (r : Report) {column column' : String}
    (value : String) (h : column' ≠ column) :
    (r.setText column value).row.cell? column' = r.row.cell? column' :=
  Row.cell?_put_of_ne _ _ h

theorem cell?_setAggregatorId_of_ne (r : Report) {column : String}
    (id : Option String) (h : column ≠ Columns.aggregatorId) :
    (r.setAggregatorId id).row.cell? column = r.row.cell? column := by
  unfold setAggregatorId
  split
  · exact Row.cell?_remove_of_ne _ h
  · split
    · exact Row.cell?_remove_of_ne _ h
    · exact cell?_setText_of_ne _ _ h

theorem text_setAggregatorId_of_ne (r : Report) {column : String}
    (id : Option String) (h : column ≠ Columns.aggregatorId) :
    (r.setAggregatorId id).text column = r.text column := by
  simp [text, Row.code, Row.read, cell?_setAggregatorId_of_ne r id h]

@[simp] theorem text_setAggregatorId_none (r : Report) :
    (r.setAggregatorId none).text Columns.aggregatorId = "" := by
  simp [setAggregatorId, text, Row.code, Row.read]

@[simp] theorem text_setAggregatorId_rowId (r : Report) (id : RowId) :
    (r.setAggregatorId (some id.text)).text Columns.aggregatorId = id.text := by
  simp [setAggregatorId]

/-! ## Status and link -/

@[simp] theorem Status.ofText_text (status : Status) :
    Status.ofText status.text = status := by
  cases status <;> decide

@[simp] theorem Kind.ofText_text (kind : Kind) :
    Kind.ofText kind.text = kind := by
  cases kind <;> decide

@[simp] theorem status_setStatus (r : Report) (status : Status) :
    (r.setStatus status).status = status := by
  rw [Report.status, setStatus, text_setText_self, Status.ofText_text]

@[simp] theorem previousStatus_setStatus (r : Report) (status : Status) :
    (r.setStatus status).previousStatus = some r.status := by
  have hblank : Text.isBlankText r.status.text = false := by
    cases r.status <;> decide
  have htext : (r.setStatus status).text Columns.previousStatus =
      r.status.text := by
    rw [setStatus, text_setText_of_ne _ _ (by decide), text_setText_self]
  simp [previousStatus, htext, hblank]

@[simp] theorem status_setAggregatorId (r : Report) (id : Option String) :
    (r.setAggregatorId id).status = r.status := by
  rw [Report.status, text_setAggregatorId_of_ne r id (by decide), Report.status]

@[simp] theorem previousStatus_setAggregatorId (r : Report)
    (id : Option String) :
    (r.setAggregatorId id).previousStatus = r.previousStatus := by
  rw [Report.previousStatus, text_setAggregatorId_of_ne r id (by decide),
    Report.previousStatus]

theorem aggregatorId_eq_of_text_eq {r r' : Report}
    (h : r'.text Columns.aggregatorId = r.text Columns.aggregatorId) :
    r'.aggregatorId = r.aggregatorId := by
  rw [aggregatorId, h, aggregatorId]

theorem aggregatorId_of_text {r : Report} {id : RowId}
    (h : r.text Columns.aggregatorId = id.text) :
    r.aggregatorId = some id.text := by
  simp [aggregatorId, h]

theorem text_ne_of_aggregatorId_none {r : Report} (h : r.aggregatorId = none)
    (id : RowId) :
    r.text Columns.aggregatorId ≠ id.text := by
  intro htext
  rw [aggregatorId_of_text htext] at h
  cases h

theorem aggregatorRowId_of_text {r : Report} {id : RowId}
    (h : r.text Columns.aggregatorId = id.text) (hid : id < Numeral.word64) :
    r.aggregatorRowId = some id := by
  rw [aggregatorRowId, aggregatorId_of_text h, Option.bind_some,
    RowId.read_text hid]
  rfl

@[simp] theorem aggregatorId_setAggregatorId_none (r : Report) :
    (r.setAggregatorId none).aggregatorId = none := by
  rw [aggregatorId, text_setAggregatorId_none]
  decide

/-! ## Identity -/

/-- The columns that no step of the life cycle writes into a stored report. -/
def identity : List String :=
  [Columns.kind, Columns.senderId, Columns.version, Columns.dataCollection]

/-- The same report in the same place, with another status or link. -/
structure Keeps (r r' : Report) : Prop where
  id : r'.id = r.id
  table : r'.row.table = r.row.table
  text : ∀ column ∈ identity, r'.text column = r.text column

namespace Keeps

variable {r r' r'' : Report}

theorem refl (r : Report) : r.Keeps r := ⟨rfl, rfl, fun _ _ => rfl⟩

theorem trans (h : r.Keeps r') (h' : r'.Keeps r'') : r.Keeps r'' := by
  constructor
  · rw [h'.id, h.id]
  · rw [h'.table, h.table]
  · intro column hcolumn
    rw [h'.text column hcolumn, h.text column hcolumn]

theorem kind (h : r.Keeps r') : r'.kind = r.kind := by
  rw [Report.kind, h.text Columns.kind (by decide), Report.kind]

theorem senderId (h : r.Keeps r') : r'.senderId = r.senderId :=
  h.text Columns.senderId (by decide)

theorem dataCollection (h : r.Keeps r') :
    r'.dataCollection = r.dataCollection :=
  h.text Columns.dataCollection (by decide)

theorem isAmendment (h : r.Keeps r') : r'.isAmendment = r.isAmendment := by
  rw [Report.isAmendment, version, h.text Columns.version (by decide),
    Report.isAmendment, version]

theorem isAggregator (h : r.Keeps r') : r'.isAggregator = r.isAggregator := by
  rw [Report.isAggregator, h.kind, Report.isAggregator]

theorem isVisible (h : r.Keeps r') : r'.isVisible = r.isVisible := by
  rw [Report.isVisible, h.kind, Report.isVisible]

end Keeps

theorem keeps_setText (r : Report) {column : String} (value : String)
    (h : column ∉ identity) : r.Keeps (r.setText column value) where
  id := rfl
  table := rfl
  text := fun _ hcolumn => text_setText_of_ne r value fun heq =>
    h (heq ▸ hcolumn)

theorem keeps_setStatus (r : Report) (status : Status) :
    r.Keeps (r.setStatus status) :=
  (keeps_setText r _ (by decide)).trans (keeps_setText _ _ (by decide))

theorem schema_setAggregatorId (r : Report) (id : Option String) :
    (r.setAggregatorId id).row.schema = r.row.schema := by
  unfold setAggregatorId
  split
  · rfl
  · split <;> rfl

theorem keeps_setAggregatorId (r : Report) (id : Option String) :
    r.Keeps (r.setAggregatorId id) := by
  constructor
  · unfold setAggregatorId
    split
    · rfl
    · split <;> rfl
  · rw [Row.table, schema_setAggregatorId, Row.table]
  · intro column hcolumn
    refine text_setAggregatorId_of_ne r id ?_
    rintro rfl
    exact absurd hcolumn (by decide)

theorem isVisible_iff {r : Report} :
    r.isVisible = true ↔ r.isAggregator = false := by
  rw [isVisible, isAggregator]
  cases r.kind <;> decide

end ReportDesk.Report
