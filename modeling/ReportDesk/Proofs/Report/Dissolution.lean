import ReportDesk.Proofs.Report.FailedSend

/-!
# When a finalized aggregator is dissolved

An aggregator is dissolved when it is no longer stored and no stored report
names it.  Of the steps that may leave it with a finalized status only the
refresh of a report that names it dissolves it; a send, a submission and the
refresh of the aggregator itself keep it in the store.
-/

namespace ReportDesk.Report

variable {σ : Type} {service : Service σ} {batch : Batch} {d d' : Desk σ}
  {g : RowId} {report : Report}

/-! ## Writing keeps slots taken -/

def Shelf.Within (s s' : Shelf) : Prop :=
  ∀ id, (s.slot id).isSome = true → (s'.slot id).isSome = true

theorem Shelf.Within.trans {s s' s'' : Shelf} (h : s.Within s')
    (h' : s'.Within s'') :
    s.Within s'' :=
  fun id hid => h' id (h id hid)

private theorem Shelf.within_put (s : Shelf) (id : RowId) (report : Report) :
    s.Within (s.put id report) := by
  intro id' hid'
  by_cases heq : id' = id
  · simp [heq]
  · rwa [slot_put_of_ne s report heq]

private theorem Repository.shelf_of_update {r r' : Repository}
    (h : r.update report = .ok r') :
    ∃ id, report.id = some id ∧
      (r.store.get? report.row.table id).isSome = true ∧
      r'.shelf = if report.row.table = r.table then r.shelf.put id report
        else r.shelf := by
  unfold update at h
  split at h
  · cases h
  next id hid =>
    have hrow : report.row.id = some id := hid
    by_cases hstored : (r.store.get? report.row.table id).isSome = true
    · refine ⟨id, hid, hstored, ?_⟩
      simp only [Store.update, hrow, hstored, if_true, Except.ok.injEq] at h
      rw [← h, shelf_file]
    · simp [Store.update, hrow, hstored] at h

private theorem Repository.within_of_update {r r' : Repository}
    (h : r.update report = .ok r') :
    r.shelf.Within r'.shelf := by
  obtain ⟨id, -, -, hshelf⟩ := shelf_of_update h
  rw [hshelf]
  split
  · exact Shelf.within_put _ _ _
  · exact fun _ htaken => htaken

private theorem FanOut.within_updateAll (reports : List Report)
    (r : Repository) :
    r.shelf.Within (updateAll reports r).2.shelf := by
  induction reports generalizing r with
  | nil => exact fun _ htaken => htaken
  | cons first rest ih =>
      rw [updateAll]
      split
      next r' hupdate =>
        exact (Repository.within_of_update hupdate).trans (ih r')
      next => exact fun _ htaken => htaken

namespace Step

theorem taken_of_update (h : (update report).perform d = (.ok (), d'))
    (hid : report.id = some g)
    (htable : report.row.table = d.repository.table) :
    (d.repository.shelf.slot g).isSome = true ∧
      (d'.repository.shelf.slot g).isSome = true := by
  rw [perform_update] at h
  split at h
  next r hupdate =>
    obtain ⟨id, hid', hstored, hshelf⟩ := Repository.shelf_of_update hupdate
    obtain rfl : g = id := by simpa [hid] using hid'
    rw [htable] at hstored
    rw [if_pos htable] at hshelf
    rw [← (Prod.mk.inj h).2, hshelf]
    exact ⟨by simpa [Repository.shelf, Repository.get?] using hstored, by simp⟩
  · simp at h

private theorem taken_of_commit {plan : FanOut}
    {result : Except Error (List Report)}
    (h : (change plan.commit).perform d = (result, d'))
    (hkept : g ∉ plan.deletions)
    (htaken : (d.repository.shelf.slot g).isSome = true) :
    (d'.repository.shelf.slot g).isSome = true := by
  have hwithin := FanOut.within_updateAll plan.updates d.repository
  rw [perform_change] at h
  rw [← (Prod.mk.inj h).2]
  unfold FanOut.commit
  split
  next r hupdate =>
    rw [hupdate] at hwithin
    rw [FanOut.shelf_deleteAll, Shelf.slot_dropAll, if_neg hkept]
    exact hwithin g htaken
  next error r hupdate =>
    rw [hupdate] at hwithin
    exact hwithin g htaken

end Step

/-! ## Operations that give a status -/

inductive Operation where
  | send (batch : Batch)
  | submit (batch : Batch)
  | refresh (report : Report)

def Operation.step (service : Service σ) : Operation → Step σ Report
  | .send batch => do
      let sent ← sendBatch service batch
      return sent.target
  | .submit batch => do
      match batch.reports with
      | [] => throw .emptyBatch
      | first :: _ =>
          let target ← submitTarget first
          let status ← submitBatch service batch
          return target.setStatus status
  | .refresh report => refreshStatus service report

/-- The row is not stored, and no stored report names it as its aggregator. -/
def Repository.Dissolved (r : Repository) (g : RowId) : Prop :=
  r.get? g = none ∧ ∀ report ∈ r.all, report.aggregatorRowId ≠ some g

variable {a : Report}

theorem Repository.not_dissolved {r : Repository}
    (h : (r.shelf.slot g).isSome = true) :
    ¬ r.Dissolved g := by
  rintro ⟨hnone, -⟩
  change (r.get? g).isSome = true at h
  simp [hnone] at h

private theorem table_sendTarget {reports : List Report}
    (h : (sendTarget reports).perform d = (.ok a, d')) :
    d'.repository.table = d.repository.table := by
  rcases repository_sendTarget h
    with ⟨-, hkept⟩ | ⟨first, second, rest, -, hnew⟩
  · rw [hkept]
  · rw [hnew]
    rfl

/-! ## Steps that keep the report that took the status -/

private theorem deletions_adopt {reports : List Report} {plan : FanOut}
    (h : FanOut.adopt a reports = .ok plan) : plan.deletions = [] := by
  unfold FanOut.adopt at h
  split at h
  · cases h
  · rw [← Except.ok.inj h]

theorem taken_of_sendBatch {sent : Sent}
    (h : (sendBatch service batch).perform d = (.ok sent, d'))
    (hid : sent.target.id = some g)
    (htable : sent.target.row.table = d.repository.table) :
    (d'.repository.shelf.slot g).isSome = true := by
  unfold sendBatch at h
  split at h
  · simp at h
  obtain ⟨target, d₁, htarget, h⟩ := Step.exists_of_perform_bind_ok h
  obtain ⟨receipt, d₂, hask, h⟩ := Step.exists_of_perform_bind_ok h
  obtain ⟨⟨⟩, d₃, hupdate, h⟩ := Step.exists_of_perform_bind_ok h
  have htable₂ : d₂.repository.table = d.repository.table := by
    rw [Step.repository_ask hask, table_sendTarget htarget]
  split at h
  · rw [Step.perform_bind_ok (Step.perform_repository d₃)] at h
    simp only at h
    split at h
    next plan hplan =>
      obtain ⟨reports, d₄, hcommit, h⟩ := Step.exists_of_perform_bind_ok h
      obtain ⟨rfl, rfl⟩ : _ = sent ∧ d₄ = d' := by simpa using h
      -- the rows that are removed are stored versions other than the target
      have hkept : g ∉ (plan.withDeletions (staleVersions d₃.repository
          (withReceipt target receipt))).deletions := by
        simp [FanOut.withDeletions, deletions_adopt hplan, staleVersions, hid]
      exact Step.taken_of_commit hcommit hkept
        (Step.taken_of_update hupdate hid (htable.trans htable₂.symm)).2
    · simp at h
  · obtain ⟨rfl, rfl⟩ : _ = sent ∧ d₃ = d' := by simpa using h
    exact (Step.taken_of_update hupdate hid (htable.trans htable₂.symm)).2

theorem taken_of_submitBatch {first target : Report} {rest : List Report}
    {status : Status} (hreports : batch.reports = first :: rest)
    (htarget : (submitTarget first).perform d = (.ok target, d))
    (h : (submitBatch service batch).perform d = (.ok status, d'))
    (hid : target.id = some g)
    (htable : target.row.table = d.repository.table) :
    (d'.repository.shelf.slot g).isSome = true := by
  unfold submitBatch at h
  simp only [hreports] at h
  rw [Step.perform_bind_ok htarget] at h
  split at h
  · obtain ⟨status, d₁, hask, h⟩ := Step.exists_of_perform_bind_ok h
    obtain ⟨⟨⟩, d₂, hupdate, h⟩ := Step.exists_of_perform_bind_ok h
    obtain ⟨others, d₃, hcommit, h⟩ := Step.exists_of_perform_bind_ok h
    have hkeep := keeps_setStatus target status
    obtain ⟨-, rfl⟩ := Prod.mk.inj h
    apply Step.taken_of_commit hcommit List.not_mem_nil
    have htable' : (target.setStatus status).row.table =
        d₁.repository.table := by
      rw [hkeep.table, htable, Step.repository_ask hask]
    exact (Step.taken_of_update hupdate (hkeep.id.trans hid) htable').2
  · simp at h

theorem taken_of_refreshAlone
    (h : (refreshAlone service report).perform d = (.ok a, d'))
    (hid : a.id = some g) (htable : a.row.table = d.repository.table) :
    (d.repository.shelf.slot g).isSome = true ∧
      (d'.repository.shelf.slot g).isSome = true := by
  unfold refreshAlone at h
  obtain ⟨status, d₁, hask, h⟩ := Step.exists_of_perform_bind_ok h
  obtain ⟨⟨⟩, d₂, hupdate, h⟩ := Step.exists_of_perform_bind_ok h
  obtain ⟨rfl, rfl⟩ : _ = a ∧ d₂ = d' := by simpa using h
  have hkept := Step.repository_ask hask
  rw [← hkept] at htable ⊢
  exact Step.taken_of_update hupdate hid htable

/-! ## The step that dissolves an aggregator -/

private theorem slot_of_refreshAggregator {a₀ : Report}
    (hfiled : d.repository.shelf.Filed)
    (hslot : d.repository.shelf.slot g = some a₀)
    (h : (refreshAggregator service a₀).perform d = (.ok a, d'))
    (hfinal : a.status.isFinalized = true) :
    a = a₀.setStatus a.status ∧ ∀ id, d'.repository.shelf.slot id =
      (d.repository.shelf.slot id).bind (released g a₀ a.status) := by
  rcases perform_refreshAggregator service hfiled hslot with
    ⟨error, d₁, hfail, -⟩ |
    ⟨status, d₁, followers, versions, hperform, hnodup, hfollowers,
      hversions, hshelf⟩
  · simp [hfail] at h
  · rw [h] at hperform
    obtain ⟨rfl, rfl⟩ : a = a₀.setStatus status ∧
      d' = d₁ := by simpa using hperform
    rw [status_setStatus] at hfinal ⊢
    rw [if_pos hfinal] at hshelf
    refine ⟨rfl, fun id => ?_⟩
    rw [hshelf]
    exact Shelf.slot_release hfiled hslot hnodup hfollowers hversions id

private theorem aggregatorRowId_detached (status : Status) (c : Report) :
    (detached status c).aggregatorRowId = none := by
  simp [aggregatorRowId, detached]

theorem dissolved_of_released {r r' : Repository} {a₀ : Report}
    {status : Status} (hslot : r.shelf.slot g = some a₀) (hafter : ∀ id,
      r'.shelf.slot id = (r.shelf.slot id).bind (released g a₀ status)) :
    r'.Dissolved g ↔ ∀ report ∈ r.all, report.aggregatorRowId = some g →
      report.senderId = a₀.senderId ∨
        report.text Columns.aggregatorId = g.text := by
  have hgone : r'.get? g = none := by
    change r'.shelf.slot g = none
    simp [hafter, hslot, released]
  constructor
  · rintro ⟨-, hunnamed⟩ report hmem hrow
    by_contra hstays
    rw [not_or] at hstays
    obtain ⟨id, hid⟩ := Repository.mem_all.mp hmem
    apply hunnamed report _ hrow
    apply Repository.mem_all.mpr ⟨id, _⟩
    simp [hafter, hid, released, hstays]
  · intro hall
    refine ⟨hgone, fun report hmem hrow => ?_⟩
    obtain ⟨id, hid⟩ := Repository.mem_all.mp hmem
    rw [hafter] at hid
    obtain ⟨c, hc, hreleased⟩ := Option.bind_eq_some_iff.mp hid
    unfold released at hreleased
    split at hreleased
    · cases hreleased
    next hsender =>
      split at hreleased
      next hlink =>
        rw [← Option.some.inj hreleased, aggregatorRowId_detached] at hrow
        cases hrow
      next hlink =>
        obtain rfl := Option.some.inj hreleased
        rcases hall c (Repository.mem_all.mpr ⟨id, hc⟩) hrow with h | h
        · exact hsender h
        · exact hlink h

theorem dissolved_of_refreshStatus (hfiled : d.repository.shelf.Filed)
    (h : (refreshStatus service report).perform d = (.ok a, d'))
    (hfinal : a.status.isFinalized = true) (hid : a.id = some g)
    (htable : a.row.table = d.repository.table) :
    d'.repository.Dissolved g ↔ report.aggregatorRowId = some g ∧
      ∀ c ∈ d.repository.all, c.aggregatorRowId = some g →
        c.senderId = a.senderId ∨ c.text Columns.aggregatorId = g.text := by
  unfold refreshStatus at h
  split at h
  next hnone =>
    have hkept := (taken_of_refreshAlone h hid htable).2
    simp [Repository.not_dissolved hkept, aggregatorRowId, hnone]
  next aggregatorId hsome =>
    rw [Step.perform_bind_ok (Step.perform_repository d)] at h
    split at h
    next a₀ hget =>
      obtain ⟨g', hrow, hslot⟩ := Option.bind_eq_some_iff.mp hget
      obtain ⟨ha, hafter⟩ := slot_of_refreshAggregator hfiled hslot h hfinal
      have hkeep := keeps_setStatus a₀ a.status
      rw [← ha] at hkeep
      obtain rfl : g' = g := by simpa [hkeep.id, hfiled.id hslot] using hid
      rw [dissolved_of_released hslot hafter, hkeep.senderId]
      simp [hrow]
    next hget =>
      rw [Step.perform_bind_ok (Step.perform_log _ d)] at h
      obtain ⟨hstored, hkept⟩ := taken_of_refreshAlone h hid htable
      -- a report that names its own id would find itself
      have hrow : report.aggregatorRowId ≠ some g := by
        intro hrow
        rw [hrow, Option.bind_some] at hget
        change (d.repository.get? g).isSome = true at hstored
        simp [hget] at hstored
      simp [Repository.not_dissolved hkept, hrow]

/--
A report that takes a finalized status is dissolved exactly when it is
refreshed through a report that names it, and when no report would be left with
another spelling of its id.
-/
theorem Operation.dissolved_iff {op : Operation}
    (hfiled : d.repository.shelf.Filed)
    (h : (op.step service).perform d = (.ok a, d'))
    (hfinal : a.status.isFinalized = true) (hid : a.id = some g)
    (htable : a.row.table = d.repository.table) :
    d'.repository.Dissolved g ↔
      (∃ report, op = .refresh report ∧ report.aggregatorRowId = some g) ∧
        ∀ report ∈ d.repository.all, report.aggregatorRowId = some g →
          report.senderId = a.senderId ∨
            report.text Columns.aggregatorId = g.text := by
  cases op with
  | send batch =>
      obtain ⟨sent, d₁, hsend, h⟩ := Step.exists_of_perform_bind_ok h
      obtain ⟨rfl, rfl⟩ : _ = a ∧ d₁ = d' := by simpa using h
      simp [Repository.not_dissolved (taken_of_sendBatch hsend hid htable)]
  | submit batch =>
      unfold step at h
      simp only at h
      split at h
      · simp at h
      next first rest hreports =>
        obtain ⟨target, d₁, htarget, h⟩ := Step.exists_of_perform_bind_ok h
        obtain ⟨status, d₂, hsubmit, h⟩ := Step.exists_of_perform_bind_ok h
        obtain ⟨rfl, rfl⟩ : _ = a ∧ d₂ = d' := by simpa using h
        have hkeep := keeps_setStatus target status
        obtain rfl : d₁ = d := by
          rcases perform_submitTarget first d
            with ⟨error, hfail⟩ | ⟨target', hsame, -⟩
          · simp [hfail] at htarget
          · simp [hsame] at htarget
            exact htarget.2.symm
        simp [Repository.not_dissolved
          (taken_of_submitBatch hreports htarget hsubmit
            (hkeep.id.symm.trans hid) (hkeep.table.symm.trans htable))]
  | refresh report =>
      change (refreshStatus service report).perform d = _ at h
      rw [dissolved_of_refreshStatus hfiled h hfinal hid htable]
      simp

/-! ## An aggregator refreshed through a report, and by itself -/

def finalizing : Service Unit where
  fetchStatus _ state := (.ok .acceptedDwh, state)
  send _ state := (.ok ⟨"MSG-1", "DS-1", .acceptedDwh⟩, state)
  submit _ state := (.ok .acceptedDwh, state)

def sentAggregator :
    Report := (sentTogether.repository.get? 3).getD (amendment "A")

def finalAggregator : Report := sentAggregator.setStatus .acceptedDwh

def refreshed (id : RowId) : Except Error Report × Desk Unit :=
  let report := (sentTogether.repository.get? id).getD (amendment "A")
  ((Operation.refresh report).step finalizing).perform sentTogether

theorem dissolved_iff_finalizing :
    (refreshed 1).1 = .ok finalAggregator ∧
      finalAggregator.isAggregator = true ∧
      (refreshed 1).2.repository.Dissolved 3 := by
  obtain ⟨hok, hkind, hfinal, hid, htable, hlinks⟩ :
      (refreshed 1).1 = .ok finalAggregator ∧
      finalAggregator.isAggregator = true ∧
      finalAggregator.status.isFinalized = true ∧ finalAggregator.id = some 3 ∧
      finalAggregator.row.table = sentTogether.repository.table ∧
      ∀ c ∈ sentTogether.repository.all, c.aggregatorRowId = some 3 →
        c.senderId = finalAggregator.senderId ∨
          c.text Columns.aggregatorId = RowId.text 3 := by
    decide +kernel
  have hperform : ((Operation.refresh ((sentTogether.repository.get? 1).getD
      (amendment "A"))).step finalizing).perform sentTogether =
        (.ok finalAggregator, (refreshed 1).2) := Prod.ext hok rfl
  have hiff := Operation.dissolved_iff reachable_sentTogether.filed hperform
    hfinal hid htable
  exact ⟨hok, hkind, hiff.mpr ⟨⟨_, rfl, by decide +kernel⟩, hlinks⟩⟩

/--
An aggregator that is refreshed by itself stays stored with its finalized
status.
-/
theorem refreshed_aggregator_stays :
    sentTogether.repository.get? 3 = some sentAggregator ∧
      sentAggregator.isAggregator = true ∧
      finalAggregator.status.isFinalized = true ∧
      (refreshed 3).1 = .ok finalAggregator ∧
      (refreshed 3).2.repository.get? 3 = some finalAggregator := by
  decide +kernel

end ReportDesk.Report
