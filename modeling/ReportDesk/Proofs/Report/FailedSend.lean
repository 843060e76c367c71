import ReportDesk.Proofs.Report.Lifecycle

/-!
# Sends that the service refuses

A refused send of one report changes nothing.  Several reports are sent through
an aggregator, which is stored before the service is asked: when the service
refuses, the aggregator stays behind, and the next load of the collection
answers it without the reports that were to be sent.
-/

namespace ReportDesk.Report

variable {σ α β : Type}

/-! ## Steps that do not ask the service -/

namespace Step

def Offline (step : Step σ α) : Prop :=
  ∀ d e, (step.perform d).1 ≠ .error (.service e)

private theorem Clerical.offline {step : Step σ α} (h : step.Clerical) :
    step.Offline := by
  intro d e hfail
  cases h.origin d _ hfail

private theorem exists_of_service_error {step : Step σ α}
    {request : α → Request} {answer : α → σ → Except ServiceError β × σ}
    {γ : Type} {next : α → β → Step σ γ} {d d' : Desk σ} {e : ServiceError}
    (h : (step >>= fun a => ask (request a) (answer a) >>= next a).perform d =
      (.error (.service e), d')) (hstep : step.Offline)
    (hnext : ∀ a b, (next a b).Offline) :
    ∃ a d₁, step.perform d = (.ok a, d₁) ∧ d'.repository = d₁.repository := by
  rcases perform_bind_error_cases h with hfail | ⟨a, d₁, hok, hfail⟩
  · exact absurd (congrArg Prod.fst hfail) (hstep d e)
  · refine ⟨a, d₁, hok, ?_⟩
    rcases perform_bind_error_cases hfail with hask | ⟨b, d₂, -, hlater⟩
    · exact repository_ask hask
    · exact absurd (congrArg Prod.fst hlater) (hnext a b d₂ e)

end Step

/-! ## What a refusal leaves behind -/

theorem error_of_sendTarget {reports : List Report} {error : Error}
    {d d' : Desk σ} (h : (sendTarget reports).perform d = (.error error, d')) :
    d' = d ∧ (reports = [] ∧ error = .emptyBatch ∨
      ∃ expected found, error = .mixedDataCollections expected found) := by
  match reports with
  | [] =>
      cases h
      exact ⟨rfl, .inl ⟨rfl, rfl⟩⟩
  | [report] => cases h
  | first :: second :: rest =>
      rw [perform_sendTarget rfl] at h
      split at h
      · cases h
        exact ⟨rfl, .inr ⟨_, _, rfl⟩⟩
      · cases h

private theorem offline_sendTarget (reports : List Report) :
    (sendTarget reports : Step σ Report).Offline := by
  intro d e h
  obtain ⟨-, ⟨-, hempty⟩ | ⟨expected, found, hmixed⟩⟩ :=
    error_of_sendTarget (Prod.ext h rfl)
  · cases hempty
  · cases hmixed

theorem repository_sendTarget {reports : List Report} {target : Report}
    {d d' : Desk σ} (h : (sendTarget reports).perform d = (.ok target, d')) :
    (reports.length = 1 ∧ d'.repository = d.repository) ∨
      ∃ first second rest, reports = first :: second :: rest ∧
        d'.repository = d.repository.withNewAggregator reports first := by
  match reports with
  | [] => simp [sendTarget] at h
  | [report] =>
      left
      have heq : d = d' := (Prod.mk.inj h).2
      exact ⟨rfl, by rw [heq]⟩
  | first :: second :: rest =>
      right
      refine ⟨first, second, rest, rfl, ?_⟩
      rw [perform_sendTarget rfl] at h
      split at h
      · cases h
      · rw [← (Prod.mk.inj h).2]

variable {service : Service σ} {batch : Batch} {d d' : Desk σ}
  {e : ServiceError}

/--
Once the service has taken the report, the rest of a send is work on the
repository.
-/
theorem exists_sendBatch_eq (service : Service σ) (batch : Batch) :
    ∃ deliver : Report → Receipt → Step σ Sent,
      (∀ target receipt, (deliver target receipt).Clerical) ∧
      sendBatch service batch = match batch.reports.find? fun r =>
          !r.status.canBeSent with
        | some blocked =>
          throw (.invalidTransition blocked.senderId blocked.status .send)
        | none => sendTarget batch.reports >>= fun target =>
            Step.ask (.send target.senderId) (service.send target) >>=
              deliver target := by
  refine ⟨_, fun target receipt => ?_, rfl⟩
  apply Step.Clerical.bind (Step.clerical_update _)
  intro _
  split
  · apply Step.Clerical.bind Step.clerical_repository
    intro r
    split
    · exact Step.Clerical.bind (Step.clerical_commit _) fun _ =>
        Step.clerical_pure _
    next error hadopt =>
      apply Step.clerical_throw
      unfold FanOut.adopt at hadopt
      split at hadopt
      · cases hadopt
        rfl
      · cases hadopt
  · exact Step.clerical_pure _

/-- The desk that a refused send leaves: as it was, or with a new aggregator. -/
theorem repository_of_service_error
    (h : (sendBatch service batch).perform d = (.error (.service e), d')) :
    (batch.size = 1 ∧ d'.repository = d.repository) ∨
      ∃ first second rest, batch.reports = first :: second :: rest ∧
        d'.repository = d.repository.withNewAggregator batch.reports first := by
  obtain ⟨deliver, hclerical, heq⟩ := exists_sendBatch_eq service batch
  rw [heq] at h
  split at h
  · simp at h
  · obtain ⟨target, d₁, htarget, hkept⟩ :=
      Step.exists_of_service_error h (offline_sendTarget _)
      fun target receipt => (hclerical target receipt).offline
    rw [hkept]
    exact repository_sendTarget htarget

/--
A send that the service refuses leaves every stored row and every batch as it
was exactly when it was the send of a single report.
-/
theorem sendBatch_keeps_rows_iff (hfiled : d.repository.shelf.Filed)
    (h : (sendBatch service batch).perform d = (.error (.service e), d')) :
    ((∀ table, d'.repository.store.rows table = d.repository.store.rows table) ∧
      ∀ dataCollection, Batch.load d'.repository dataCollection =
        Batch.load d.repository dataCollection) ↔ batch.size = 1 := by
  rcases repository_of_service_error h with
    ⟨hsize, hkept⟩ | ⟨first, second, rest, hreports, hnew⟩
  · simp [hsize, hkept]
  · have hsize : batch.size ≠ 1 := by simp [Batch.size, hreports]
    refine iff_of_false ?_ hsize
    rintro ⟨hrows, -⟩
    -- the next id was free, and now the aggregator has it
    have hfree := hfiled.slot_next
    have htaken := congrArg (fun s => s.slot (d.repository.shelf.last + 1))
      (d.repository.shelf_withNewAggregator batch.reports first)
    rw [← hnew] at htaken
    have hsame : d'.repository.shelf.slot = d.repository.shelf.slot := by
      funext id
      change (d'.repository.store.get? d'.repository.table id).map _ =
        (d.repository.store.get? d.repository.table id).map _
      have htable : d'.repository.table = d.repository.table := by
        rw [hnew]; rfl
      rw [htable, Store.get?, Store.get?, hrows]
    simp [hsame, hfree] at htaken

/-! ## The batch after a refusal -/

/--
The amendments of a collection without an aggregator are out of reach once an
aggregator was stored for them, when no report names the id that it takes.
-/
theorem Batch.load_withNewAggregator {r : Repository} {dc : String}
    {first : Report} (hfiled : r.shelf.Filed) (hunnamed : ∀ report ∈ r.all,
      report.aggregatorRowId ≠ some (r.shelf.last + 1))
    (hnone : (load r dc).aggregator = none)
    (hfirst : first ∈ (load r dc).reports) :
    load (r.withNewAggregator (load r dc).reports first) dc =
      ⟨some (r.shelf.aggregatorFor (load r dc).reports first), []⟩ := by
  let a := r.shelf.aggregatorFor (load r dc).reports first
  let r' := r.withNewAggregator (load r dc).reports first
  have hcandidate := candidate_of_mem hfirst
  obtain ⟨hcollector, hcollection⟩ :=
    collector_aggregatorFor (s := r.shelf) hfirst hcandidate.amendment
  have hshelf : r'.shelf = r.shelf.count.put (r.shelf.last + 1) a :=
    r.shelf_withNewAggregator _ _
  have hid : a.id = some (r.shelf.last + 1) := rfl
  have hfiled' : r'.shelf.Filed := by
    rw [hshelf]
    exact hfiled.count.put hid rfl (Nat.le_refl _)
  have hstored : a ∈ r'.all :=
    Repository.mem_all.mpr ⟨r.shelf.last + 1, by simp [hshelf]⟩
  have hold {c : Report} (hc : c ∈ r'.all) : c = a ∨ c ∈ r.all := by
    obtain ⟨id, hslot⟩ := Repository.mem_all.mp hc
    rw [hshelf] at hslot
    by_cases hnext : id = r.shelf.last + 1
    · subst hnext
      simp at hslot
      exact .inl hslot.symm
    · rw [Shelf.slot_put_of_ne _ _ hnext] at hslot
      exact .inr (Repository.mem_all.mpr ⟨id, hslot⟩)
  have hfind : r'.all.find? (fun c => c.isAggregator && inProgress dc c) =
      some a := by
    apply find?_eq_of_first (Repository.pairwise_all hfiled') hstored
    · simp [inProgress, hcollector.aggregator, hcollector.amendment,
        hcollector.live, a, hcollection, hcandidate.collection]
    · intro c hc hbefore
      rcases hold hc with rfl | hc
      · exact absurd (hbefore _ _ hid hid) (Nat.lt_irrefl _)
      · rw [load_aggregator, List.find?_eq_none] at hnone
        simpa using hnone c hc
  have hnobody : ∀ c ∈ r'.all, c.isVisible = true →
      c.aggregatorRowId ≠ some (r.shelf.last + 1) := by
    intro c hc hvisible
    rcases hold hc with rfl | hc
    · rw [isVisible_iff, hcollector.aggregator] at hvisible
      cases hvisible
    · exact hunnamed c hc
  rw [load_of_aggregator hfind hid]
  congr 1
  rw [List.filter_filter, List.filter_eq_nil_iff]
  intro c hc hkept
  simp only [Bool.and_eq_true, beq_iff_eq] at hkept
  exact hnobody c hc hkept.2.1 hkept.1

/-! ## A report refused alone, and two refused together -/

def refusing : Service Unit where
  fetchStatus _ state := (.error (.unavailable "timeout"), state)
  send _ state := (.error (.unavailable "timeout"), state)
  submit _ state := (.error (.unavailable "timeout"), state)

def oneAmendment : Repository := (Repository.empty.insert (amendment "A")).2.2

def twoAmendments : Repository := (oneAmendment.insert (amendment "B")).2.2

deriving instance DecidableEq for Except

def refusedAlone : Except Error Sent × Desk Unit :=
  (sendBatch refusing (Batch.load oneAmendment "BSI")).perform
    (.start oneAmendment ())

def refusedTogether : Except Error Sent × Desk Unit :=
  (sendBatch refusing (Batch.load twoAmendments "BSI")).perform
    (.start twoAmendments ())

theorem sendBatch_keeps_rows_refusedAlone :
    refusedAlone.1 = .error (.service (.unavailable "timeout")) ∧
      (∀ table, refusedAlone.2.repository.store.rows table =
        oneAmendment.store.rows table) ∧
      ∀ dataCollection, Batch.load refusedAlone.2.repository dataCollection =
        Batch.load oneAmendment dataCollection := by
  have hfiled : oneAmendment.shelf.Filed :=
    (Repository.filed_insert sound_empty.filed (by decide)).1
  have herror : refusedAlone.1 =
      .error (.service (.unavailable "timeout")) := by decide +kernel
  have hsize : (Batch.load oneAmendment "BSI").size = 1 := by decide +kernel
  exact ⟨herror,
    (sendBatch_keeps_rows_iff hfiled (Prod.ext herror rfl)).mpr hsize⟩

/-- The aggregator of a refused send hides the reports from the next load. -/
theorem refusedTogether_leaves_aggregator :
    refusedTogether.1 = .error (.service (.unavailable "timeout")) ∧
      twoAmendments.get? 3 = none ∧
      (refusedTogether.2.repository.get? 3).isSome = true ∧
      (Batch.load twoAmendments "BSI").size = 2 ∧
      (Batch.load refusedTogether.2.repository "BSI").size = 0 := by
  decide +kernel

end ReportDesk.Report
