import Mathlib.Logic.Relation
import ReportDesk.Proofs.Report.Sound

/-!
# Every linked report has its aggregator

The desk starts without reports.  Reports are stored, batches are loaded and
sent or submitted, and stored reports are refreshed, in any order, and the
service may fail or answer what it likes, only that it does not finalize a
dataset when it is sent or submitted.
-/

namespace ReportDesk.Report

variable {σ : Type}

/-- Sending and submitting never end in a finalized status. -/
structure Service.Deferring (service : Service σ) : Prop where
  send : ∀ {report state receipt}, (service.send report state).1 = .ok receipt →
    receipt.status.isFinalized = false
  submit : ∀ {report state status},
      (service.submit report state).1 = .ok status →
    status.isFinalized = false

inductive Move (service : Service σ) (d : Desk σ) : Desk σ → Prop where
  | insert {report : Report} (hid : report.id = none)
      (hvisible : report.isVisible = true)
      (hlink : report.aggregatorId = none)
      (hsender : ¬ Aggregator.senderSuffix.toList <:+ report.senderId.toList) :
      Move service d { d with repository := (d.repository.insert report).2.2 }
  | send (dataCollection : String) : Move service d
      ((sendBatch service (Batch.load d.repository dataCollection)).perform d).2
  | submit (dataCollection : String) : Move service d
      ((submitBatch service (Batch.load d.repository dataCollection)).perform
        d).2
  | refresh {report : Report} (hmem : report ∈ d.repository.all)
      (haggregator : report.isAggregator = false) : Move service d
      ((refreshStatus service report).perform d).2

def Reachable (service : Service σ) (d : Desk σ) : Prop :=
  ∃ state, Relation.ReflTransGen (Move service) (Desk.start .empty state) d

variable {service : Service σ} {d d' : Desk σ}

theorem sound_empty : Repository.empty.shelf.Sound := by
  have hempty {id : RowId} {r : Report} :
      ¬ Repository.empty.shelf.slot id = some r :=
    fun hslot => Option.some_ne_none r hslot.symm
  constructor
  · constructor <;> exact fun hslot => absurd hslot hempty
  · exact fun _ => .of_unlinked fun hslot => absurd hslot hempty

theorem stored_of_mem_load {r : Repository} {dc : String} :
    ∀ c ∈ (Batch.load r dc).reports, ∃ id, r.shelf.slot id = some c :=
  fun _ hc => (Batch.candidate_of_mem hc).stored

theorem visible_of_mem_load {r : Repository} {dc : String} :
    ∀ c ∈ (Batch.load r dc).reports, c.isVisible = true :=
  fun _ hc => (Batch.candidate_of_mem hc).visible

theorem Repository.filed_insert {r : Repository} {report : Report}
    (hfiled : r.shelf.Filed) (hid : report.id = none) :
    (r.insert report).2.2.shelf.Filed ∧
      r.shelf.last ≤ (r.insert report).2.2.shelf.last := by
  rw [(shelf_insert r hid).2]
  split
  next htable =>
    exact ⟨hfiled.count.put rfl htable (Nat.le_refl _), Nat.le_succ _⟩
  next => exact ⟨hfiled.count, Nat.le_succ _⟩

theorem Move.filed (h : Move service d d') (hfiled : d.repository.shelf.Filed) :
    d'.repository.shelf.Filed ∧
      d.repository.shelf.last ≤ d'.repository.shelf.last := by
  cases h with
  | insert hid => exact Repository.filed_insert hfiled hid
  | send dc =>
      exact (sendBatch_sends hfiled stored_of_mem_load
          visible_of_mem_load).filed hfiled
        stored_of_mem_load
  | submit dc =>
      exact (submitBatch_submits hfiled stored_of_mem_load).filed hfiled
        stored_of_mem_load
  | refresh hmem =>
      obtain ⟨id, hslot⟩ := Repository.mem_all.mp hmem
      exact (refreshStatus_refreshes hfiled hslot).filed hfiled

theorem Move.sound (h : Move service d d') (hservice : service.Deferring)
    (hlast : d.repository.shelf.last < Numeral.word64)
    (hsound : d.repository.shelf.Sound) :
    d'.repository.shelf.Sound := by
  refine ⟨(h.filed hsound.filed).1, fun dc => ?_⟩
  cases h with
  | @insert report hid hvisible hlink hsender =>
      have hordinary : (report.withId (d.repository.shelf.last + 1)).Ordinary :=
        ⟨hvisible, hsender⟩
      change Linked (d.repository.insert report).2.2.shelf.slot dc
      rw [(Repository.shelf_insert d.repository hid).2]
      split
      · exact hsound.store (.inl hordinary) hlink
      · exact hsound.linked dc
  | send dc' =>
      refine Sends.linked hsound hlast ?_
        (sendBatch_sends hsound.filed stored_of_mem_load visible_of_mem_load) dc
      rintro receipt ⟨target, state, hanswer⟩
      exact hservice.send hanswer
  | submit dc' =>
      refine Submits.linked hsound hlast ?_
        (submitBatch_submits hsound.filed stored_of_mem_load) dc
      rintro status ⟨target, state, hanswer⟩
      exact hservice.submit hanswer
  | refresh hmem haggregator =>
      obtain ⟨id, hslot⟩ := Repository.mem_all.mp hmem
      exact (refreshStatus_refreshes hsound.filed hslot).linked hsound hlast
        hslot haggregator dc

theorem Reachable.filed (h : Reachable service d) :
    d.repository.shelf.Filed := by
  obtain ⟨state, hmoves⟩ := h
  induction hmoves with
  | refl => exact sound_empty.filed
  | tail _ hmove ih => exact (hmove.filed ih).1

/--
Reports stay linked as long as row ids are words, so that links can be read.
-/
theorem Reachable.sound (h : Reachable service d) (hservice : service.Deferring)
    (hlast : d.repository.shelf.last < Numeral.word64) :
    d.repository.shelf.Sound := by
  obtain ⟨state, hmoves⟩ := h
  induction hmoves with
  | refl => exact sound_empty
  | tail hmoves hmove ih =>
      have hbefore :=
        Nat.lt_of_le_of_lt
        (hmove.filed (Reachable.filed ⟨state, hmoves⟩)).2 hlast
      exact hmove.sound hservice hbefore (ih hbefore)

/--
A stored report with an aggregator id names a stored aggregator of its data
collection, which is not finalized and has the status of the report.  Row ids
are words of 64 bits.
-/
theorem Reachable.aggregator_of_isAggregated (hservice : service.Deferring)
    (h : Reachable service d)
    (hids : d.repository.store.lastId < Numeral.word64) :
    ∀ report ∈ d.repository.all, report.isAggregated = true →
      ∃ id aggregator, report.aggregatorRowId = some id ∧
        d.repository.get? id = some aggregator ∧
        aggregator.isAggregator = true ∧
        aggregator.dataCollection = report.dataCollection ∧
        aggregator.status.isFinalized = false ∧
          aggregator.status = report.status := by
  intro report hmem haggregated
  obtain ⟨i, hslot⟩ := Repository.mem_all.mp hmem
  have hlink : report.aggregatorId ≠ none :=
    Option.ne_none_iff_isSome.mpr haggregated
  obtain ⟨g, a, hrow, hcollector, hleads, hfollows⟩ :=
    (h.sound hservice hids).leader hids hslot hlink
  exact ⟨g, a, hrow, hleads.stored, hcollector.aggregator, hleads.collection,
    hcollector.live, hfollows.status.symm⟩

/-! ## Two amendments sent together -/

def accepting : Service Unit where
  fetchStatus _ state := (.ok .valid, state)
  send _ state := (.ok ⟨"MSG-1", "DS-1", .uploaded⟩, state)
  submit _ state := (.ok .submitted, state)

def amendment (senderId : String) : Report :=
  ((((Report.new Report.schema).setText Columns.dataCollection "BSI").setText
    Columns.senderId senderId).setText Columns.version "01").setStatus
    .locallyValidated

def sentTogether : Desk Unit :=
  let first := (Repository.empty.insert (amendment "A")).2.2
  let second := (first.insert (amendment "B")).2.2
  ((sendBatch accepting (Batch.load second "BSI")).perform (.start second ())).2

def sentReport : Report := (sentTogether.repository.get? 1).getD (amendment "A")

theorem reachable_sentTogether : Reachable accepting sentTogether := by
  have hfirst : Move accepting (.start .empty ())
      (.start (Repository.empty.insert (amendment "A")).2.2 ()) := by
    apply Move.insert
    all_goals decide +kernel
  have hsecond :
      Move accepting (.start (Repository.empty.insert (amendment "A")).2.2 ())
      (.start
        ((Repository.empty.insert (amendment "A")).2.2.insert
          (amendment "B")).2.2 ()) := by
    apply Move.insert
    all_goals decide +kernel
  exact ⟨(),
    ((Relation.ReflTransGen.refl.tail hfirst).tail hsecond).tail (.send "BSI")⟩

theorem aggregator_of_isAggregated_sentTogether :
    ∃ report ∈ sentTogether.repository.all, report.isAggregated = true ∧
      ∃ id aggregator, report.aggregatorRowId = some id ∧
        sentTogether.repository.get? id = some aggregator ∧
        aggregator.isAggregator = true ∧
        aggregator.dataCollection = report.dataCollection ∧
        aggregator.status.isFinalized = false ∧
          aggregator.status = report.status := by
  have hservice : accepting.Deferring := by
    constructor
    · intro report state receipt h
      cases h
      rfl
    · intro report state status h
      cases h
      rfl
  have hids : sentTogether.repository.store.lastId < Numeral.word64 := by
    decide +kernel
  have hany : sentTogether.repository.all.any Report.isAggregated = true := by
    decide +kernel
  obtain ⟨report, hmem, haggregated⟩ := List.any_eq_true.mp hany
  exact ⟨report, hmem, haggregated,
    Reachable.aggregator_of_isAggregated hservice reachable_sentTogether hids
    report hmem haggregated⟩

end ReportDesk.Report
