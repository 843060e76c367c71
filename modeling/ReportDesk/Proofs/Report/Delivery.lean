import ReportDesk.Proofs.Report.FailedSend
import ReportDesk.Proofs.Table.Archive

/-!
# Reports that the service takes together

When the service takes several reports, there is one new row, their aggregator.
The reports follow it, the rows that stood under its sender id are gone, and
nothing else is different.
-/

namespace ReportDesk.Report

/-! ## What is stored afterwards -/

structure HighestVersion (reports : List Report) (n : Nat) : Prop where
  ge : ∀ c ∈ reports, ∀ m, Version.number? c.version = some m → m ≤ n
  attained : n = 0 ∨ ∃ c ∈ reports, Version.number? c.version = some n

def Columns.ofAggregator : List String :=
  [kind, dataCollection, year, senderId, version, messageId, lastMessageId,
    datasetId, status,
   previousStatus]

/--
The aggregator of the reports of a collection, the first of which gives its
year.
-/
structure CollectedFor (dc : String) (reports : List Report) (first : Report)
    (receipt : Receipt) (a : Report) : Prop where
  kind : a.text Columns.kind = "COLLECTION_AGGREGATION"
  dataCollection : a.dataCollection = dc
  year : a.year = first.year
  senderId : a.senderId = dc ++ "_AGGR"
  version : ∃ n, HighestVersion reports n ∧ Version.number? a.version = some n
  messageId : a.messageId = receipt.messageId
  lastMessageId : a.lastMessageId = receipt.messageId
  datasetId : a.datasetId = receipt.datasetId
  status : a.status = receipt.status
  previousStatus : a.previousStatus = some .locallyValidated
  empty : ∀ column, column ∉ Columns.ofAggregator → a.row.cell? column = none

structure JoinedTo (g : RowId) (status : Status) (c c' : Report) : Prop where
  id : c'.id = c.id
  schema : c'.row.schema = c.row.schema
  status : c'.status = status
  previousStatus : c'.previousStatus = some c.status
  aggregatorId : c'.aggregatorId = some g.text
  cells : ∀ column,
      column ∉ [Columns.status, Columns.previousStatus, Columns.aggregatorId] →
    c'.row.cell? column = c.row.cell? column

private theorem joinedTo_adopted (g : RowId) (status : Status) (c : Report) :
    JoinedTo g status c (adopted status g c) := by
  have h : Restated status [Columns.aggregatorId] c (adopted status g c) :=
    (restated_setStatus status c).setAggregatorId (some g.text)
  have hlink : (adopted status g c).aggregatorId = some g.text :=
    aggregatorId_of_text (text_setAggregatorId_rowId _ _)
  exact ⟨h.id, h.schema, h.status, h.previousStatus, hlink, h.cells⟩

private theorem highestVersion_highest (reports : List Report) :
    HighestVersion reports (Aggregator.highestVersion reports) :=
  ⟨fun _ hc _ hm => le_highestVersion hc hm, highestVersion_attained reports⟩

theorem collectedFor_withReceipt (s : Shelf) (reports : List Report)
    (first : Report) (receipt : Receipt) :
    CollectedFor first.dataCollection reports first receipt
      (withReceipt (s.aggregatorFor reports first) receipt) := by
  have hkeep := keeps_withReceipt (s.aggregatorFor reports first) receipt
  obtain ⟨hkind, hdc, hsender, -⟩ := aggregatorFor_cells s reports first
  have hvalidated : (s.aggregatorFor reports first).status =
      .locallyValidated :=
    status_setStatus _ _
  constructor
  · rw [hkeep.text Columns.kind (by decide), hkind]
    rfl
  · rw [hkeep.dataCollection]
    exact hdc
  · simp (disch := decide) only [Report.year, withReceipt, text_setStatus_of_ne,
      text_setText_of_ne, aggregatorFor_text, Aggregator.forReports,
        text_setText_self]
  · rw [hkeep.senderId]
    exact hsender
  · refine ⟨Aggregator.highestVersion reports,
      highestVersion_highest reports, ?_⟩
    rw [Report.version, hkeep.text Columns.version (by decide)]
    exact number?_aggregatorFor s reports first
  · simp (disch := decide) only [Report.messageId, withReceipt,
      text_setStatus_of_ne, text_setText_of_ne, text_setText_self]
  · simp (disch := decide) only [Report.lastMessageId, withReceipt,
      text_setStatus_of_ne, text_setText_of_ne, text_setText_self]
  · simp (disch := decide) only [Report.datasetId, withReceipt,
      text_setStatus_of_ne, text_setText_self]
  · exact status_withReceipt _ _
  · rw [withReceipt, previousStatus_setStatus]
    simp (disch := decide) only [Report.status, text_setText_of_ne]
    exact congrArg some hvalidated
  · intro column hcolumn
    simp only [Columns.ofAggregator, List.mem_cons, List.not_mem_nil, or_false,
      not_or] at hcolumn
    obtain ⟨hkind, hdc, hyear, hsender, hversion, hmessage, hlast, hdataset,
        hstatus, hprevious⟩ :=
      hcolumn
    have hnew : (s.aggregatorFor reports first).row.cell? column = none := by
      change (Aggregator.forReports s.schema first reports).row.cell? column =
        none
      simp only [Aggregator.forReports, setStatus, setKind,
        cell?_setText_of_ne _ _ hkind, cell?_setText_of_ne _ _ hdc,
        cell?_setText_of_ne _ _ hyear, cell?_setText_of_ne _ _ hsender,
        cell?_setText_of_ne _ _ hversion, cell?_setText_of_ne _ _ hstatus,
        cell?_setText_of_ne _ _ hprevious]
      rfl
    rw [withReceipt, setStatus, cell?_setText_of_ne _ _ hstatus,
      cell?_setText_of_ne _ _ hprevious, cell?_setText_of_ne _ _ hdataset,
      cell?_setText_of_ne _ _ hlast, cell?_setText_of_ne _ _ hmessage, hnew]

/-- What becomes of a slot other than the new aggregator's. -/
inductive Rearranged (g : RowId) (senderId : String) (status : Status)
    (reports : List Report) :
    Option Report → Option Report → Prop where
  | free : Rearranged g senderId status reports none none
  | removed {c : Report} (hsender : c.senderId = senderId) :
      Rearranged g senderId status reports (some c) none
  | joined {c c' : Report} (hmem : c ∈ reports)
      (hjoined : JoinedTo g status c c') :
      Rearranged g senderId status reports (some c) (some c')
  | kept {c : Report} (hmem : c ∉ reports) (hsender : c.senderId ≠ senderId) :
      Rearranged g senderId status reports (some c) (some c)

/--
The repository before and after the reports were sent with a new aggregator.
-/
structure Delivery (dc : String) (reports : List Report) (first : Report)
    (receipt : Receipt) (r r' : Repository) (g : RowId)
    (a : Report) : Prop where
  fresh : r.get? g = none ∧ r.store.lastId < g
  stored : r'.get? g = some a
  collected : CollectedFor dc reports first receipt a
  others : ∀ i ≠ g,
    Rearranged g (dc ++ "_AGGR") receipt.status reports (r.get? i) (r'.get? i)
  elsewhere : r.SameElsewhere r'
  last : r'.store.lastId = g

variable {σ : Type} {service : Service σ} {batch : Batch} {d : Desk σ}

/--
Sending several validated reports of one collection to a service that takes
them is one request, for a new aggregator.  It adds the row of the aggregator,
removes the rows that stand under its sender id and links the other reports to
it.
-/
theorem sendBatch_together {first second : Report} {rest : List Report}
    {dc : String} (hfiled : d.repository.shelf.Filed)
    (hreports : batch.reports = first :: second :: rest)
    (hvalidated : ∀ c ∈ batch.reports, c.status = .locallyValidated)
    (hcollection : ∀ c ∈ batch.reports, c.dataCollection = dc)
    (hstored : ∀ c ∈ batch.reports, ∃ i, d.repository.get? i = some c)
    (hdistinct : batch.reports.Pairwise fun b c => b.id ≠ c.id)
    (hservice : ∀ report, ∃ receipt,
      (service.send report d.service).1 = .ok receipt) :
    ∃ sent d' unsent g, (sendBatch service batch).perform d = (.ok sent, d') ∧
      d'.requests = d.requests ++ [.send (dc ++ "_AGGR")] ∧
      service.send unsent d.service = (.ok sent.receipt, d'.service) ∧
      sent.target = withReceipt unsent sent.receipt ∧
      Delivery dc batch.reports first sent.receipt d.repository d'.repository g
        sent.target := by
  obtain rfl : first.dataCollection = dc :=
    hcollection first (by simp [hreports])
  obtain ⟨receipt, hanswer⟩ :=
    hservice (d.repository.shelf.aggregatorFor batch.reports first)
  obtain ⟨r, stale, hperform, hstale, hshelf, helsewhere⟩ :=
    perform_sendBatch_together hfiled hreports hstored
      (fun c hc => by rw [hvalidated c hc]; rfl) hcollection hanswer
  have hcollected :=
    collectedFor_withReceipt d.repository.shelf batch.reports first receipt
  have hslot := Shelf.slot_adopt hfiled hdistinct hstored hstale
  rw [← hshelf] at hslot
  have hrequest :
      (d.repository.shelf.aggregatorFor batch.reports first).senderId =
      first.dataCollection ++ "_AGGR" := by
    rw [← (keeps_withReceipt _ receipt).senderId]
    exact hcollected.senderId
  refine ⟨_, _, d.repository.shelf.aggregatorFor batch.reports first,
    d.repository.shelf.last + 1, hperform, by rw [hrequest],
    Prod.ext hanswer rfl, rfl,
    ⟨⟨hfiled.slot_next, Nat.lt_succ_self _⟩, ?_, hcollected, fun i hi => ?_,
      helsewhere, ?_⟩⟩
  · exact (hslot _).trans (if_pos rfl)
  · have hafter : r.get? i = _ := (hslot i).trans (if_neg hi)
    change Rearranged _ _ _ _ (d.repository.shelf.slot i) (r.get? i)
    rw [hafter]
    cases hc : d.repository.shelf.slot i with
    | none => exact .free
    | some c =>
        rw [Option.bind_some, joined, hcollected.senderId, status_withReceipt]
        split
        next hstale => exact .removed hstale
        next hother =>
          split
          next hmem => exact .joined hmem (joinedTo_adopted _ _ c)
          next hmem => exact .kept hmem hother
  · exact (congrArg Shelf.last hshelf).trans (Shelf.last_write _ _)

theorem Repository.filed_run (schema : Schema)
    (operations : List Store.Operation) :
    (Repository.mk schema (Store.empty.run operations).2).shelf.Filed := by
  obtain ⟨archive, -, hagrees⟩ := Store.agrees_empty.run operations
  constructor
  all_goals
    intro id report hslot
    obtain ⟨row, hrow, rfl⟩ := Option.map_eq_some_iff.mp hslot
  · exact (hagrees.filed hrow).2
  · exact (hagrees.filed hrow).1
  · exact hagrees.stored_le hrow

theorem filed_twoAmendments : twoAmendments.shelf.Filed :=
  Repository.filed_run Report.schema
    [.insert (amendment "A").row, .insert (amendment "B").row]

theorem sendBatch_together_twoAmendments :
    ∃ sent d' unsent g,
      (sendBatch accepting (Batch.load twoAmendments "BSI")).perform
      (.start twoAmendments ()) =
        (.ok sent, d') ∧
      d'.requests = [.send "BSI_AGGR"] ∧
      accepting.send unsent () = (.ok sent.receipt, d'.service) ∧
      sent.target = withReceipt unsent sent.receipt ∧
      Delivery "BSI" (Batch.load twoAmendments "BSI").reports
        ((amendment "A").withId 1)
        sent.receipt twoAmendments d'.repository g sent.target := by
  have hreports : (Batch.load twoAmendments "BSI").reports =
      [(amendment "A").withId 1, (amendment "B").withId 2] := by decide +kernel
  have hcells : ∀ c ∈ (Batch.load twoAmendments "BSI").reports,
      c.status = .locallyValidated ∧ c.dataCollection = "BSI" := by
    rw [hreports]
    decide +kernel
  have hservice : ∀ report, ∃ receipt,
      (accepting.send report ()).1 = .ok receipt :=
    fun report => ⟨_, rfl⟩
  exact sendBatch_together
    (d := .start twoAmendments ()) filed_twoAmendments hreports
    (fun c hc => (hcells c hc).1)
    (fun c hc => (hcells c hc).2) stored_of_mem_load
    (Batch.pairwise_load filed_twoAmendments) hservice

end ReportDesk.Report
