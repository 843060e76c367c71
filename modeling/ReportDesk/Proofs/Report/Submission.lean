import ReportDesk.Proofs.Report.Failures

/-!
# Batches that are submitted

A batch is submitted by one request, for its aggregator or for its first
report.  Only this report has to be ready: the others take the status that the
service answers whatever their own status was.
-/

namespace ReportDesk.Report

variable {σ : Type} {service : Service σ} {batch : Batch} {d d' : Desk σ}
  {status : Status}

/-! ## Submissions that are made -/

structure Submission (status : Status) (target : Report) (reports : List Report)
    (r r' : Repository) : Prop where
  restated : ∀ c ∈ target :: reports, ∃ i c',
      r.get? i = some c ∧ r'.get? i = some c' ∧
    Restated status [] c c'
  slots : ∀ i, Reassigned status (fun c => c ∈ target :: reports) (r.get? i)
    (r'.get? i)
  elsewhere : r.SameElsewhere r'
  last : r'.store.lastId = r.store.lastId

private theorem Reassigned.exists_restated {marked : Report → Prop} {c : Report}
    {slot : Option Report} (h : Reassigned status marked (some c) slot)
    (hmarked : marked c) :
    ∃ c', slot = some c' ∧ Restated status [] c c' := by
  cases h with
  | restated _ hrestated => exact ⟨_, rfl, hrestated⟩
  | kept hkept => exact absurd hmarked hkept

theorem submission_of_settle {target : Report} {reports : List Report}
    {id : RowId} {r r' : Repository} (hfiled : r.shelf.Filed)
    (hslot : r.shelf.slot id = some target)
    (hstored : ∀ c ∈ reports, ∃ i, r.shelf.slot i = some c)
    (hdistinct : reports.Pairwise fun b c => b.id ≠ c.id)
    (hshelf : r'.shelf = (r.shelf.put id (target.setStatus status)).write
      ((reports.filter fun c => c.id != some id).map fun c =>
        c.setStatus status))
    (helsewhere : r.SameElsewhere r') :
    Submission status target reports r r' := by
  have hslots (i : RowId) :
      Reassigned status (fun c => c ∈ target :: reports) (r.get? i)
        (r'.get? i) := by
    change Reassigned _ _ (r.shelf.slot i) (r'.shelf.slot i)
    rw [hshelf, Shelf.slot_assign hfiled hslot (hdistinct.filter _)
      fun c hc => hstored c (List.mem_filter.mp hc).1]
    refine reassigned_map fun c hc => ?_
    have hid : c.id = some i := hfiled.id hc
    by_cases hi : i = id
    · -- the target, which the batch may have among its reports
      subst hi
      obtain rfl : c = target := Option.some.inj (hc.symm.trans hslot)
      simp
    · have hne : c ≠ target := by
        rintro rfl
        exact hi (Option.some.inj (hid.symm.trans (hfiled.id hslot)))
      simp [hi, hne, hid]
  refine ⟨fun c hc => ?_, hslots, helsewhere, ?_⟩
  · obtain ⟨i, hi⟩ : ∃ i, r.get? i = some c := by
      rcases List.mem_cons.mp hc with rfl | hreport
      · exact ⟨id, hslot⟩
      · exact hstored c hreport
    have hafter := hslots i
    rw [hi] at hafter
    obtain ⟨c', hc', hrestated⟩ := hafter.exists_restated hc
    exact ⟨i, c', hi, hc', hrestated⟩
  · exact (congrArg Shelf.last hshelf).trans (Shelf.last_write _ _)

/--
A submission that succeeds was one request, for the target.  The target and the
reports of the batch take the answer once, also when the target is one of them,
and keep everything else.
-/
theorem submitBatch_restates (hfiled : d.repository.shelf.Filed)
    (hstored : ∀ c ∈ batch.reports, ∃ i, d.repository.get? i = some c)
    (hdistinct : batch.reports.Pairwise fun b c => b.id ≠ c.id)
    (h : (submitBatch service batch).perform d = (.ok status, d')) :
    ∃ target, batch.SubmittedAs d.repository target ∧
      d'.requests = d.requests ++ [.submit target.senderId] ∧
      service.submit target d.service = (.ok status, d'.service) ∧
      d'.events = d.events ∧
      Submission status target batch.reports d.repository d'.repository := by
  rcases submitBatch_cases service batch d with
    ⟨error, -, hperform, -⟩ | ⟨target, hsubmitted, -, hperform⟩
  · rw [hperform] at h
    cases h
  · rw [hperform] at h
    cases hanswer : (service.submit target d.service).1 with
    | error e =>
        rw [Step.perform_bind_error (Step.perform_ask_error hanswer)] at h
        cases h
    | ok answered =>
        obtain ⟨id, hslot⟩ := hsubmitted.stored hstored
        rw [Step.perform_bind_ok (Step.perform_ask_ok hanswer)] at h
        obtain ⟨r, hsettle, hshelf, helsewhere⟩ := perform_settle answered
          (d := ⟨d.repository, (service.submit target d.service).2,
            d.requests ++ [.submit target.senderId], d.events⟩) hfiled
            hslot hstored
        rw [hsettle] at h
        cases h
        exact ⟨target, hsubmitted, rfl, Prod.ext hanswer rfl, rfl,
          submission_of_settle hfiled hslot hstored hdistinct hshelf helsewhere⟩

def foundValid :
    Desk Unit := ((refreshStatus accepting sentReport).perform sentTogether).2

private theorem reachable_foundValid : Reachable accepting foundValid := by
  obtain ⟨state, hmoves⟩ := reachable_sentTogether
  exact ⟨state, hmoves.tail (.refresh (by decide +kernel) (by decide +kernel))⟩

def allTogether : Batch := ⟨none, foundValid.repository.all⟩

theorem submitBatch_restates_allTogether :
    ∃ d' target, (submitBatch accepting allTogether).perform foundValid =
        (.ok .submitted, d') ∧
      allTogether.SubmittedAs foundValid.repository target ∧
      d'.requests = foundValid.requests ++ [.submit target.senderId] ∧
      Submission .submitted target allTogether.reports foundValid.repository
        d'.repository := by
  have hsubmit : ((submitBatch accepting allTogether).perform foundValid).1 =
      .ok .submitted := by decide +kernel
  have hfiled := reachable_foundValid.filed
  obtain ⟨target, hsubmitted, hrequests, -, -, hsubmission⟩ :=
    submitBatch_restates hfiled (fun c hc => Repository.mem_all.mp hc)
      (Repository.nodup_all hfiled) (Prod.ext hsubmit rfl)
  exact ⟨_, target, Prod.ext hsubmit rfl, hsubmitted, hrequests, hsubmission⟩

/-! ## Submissions that are refused -/

/--
A batch is refused at the desk, which stays as it was, exactly when it has no
target that can be submitted; the status of its other reports does not count.
-/
theorem submitBatch_refused_iff (service : Service σ) (batch : Batch)
    (d : Desk σ) :
    (∃ error, (submitBatch service batch).perform d = (.error error, d)) ↔
      ∀ target, batch.SubmittedAs d.repository target →
        target.status.canBeSubmitted = false := by
  rcases submitBatch_refused_or_asked service batch d with
    ⟨error, -, hperform, hunready⟩ | ⟨target, hsubmitted, hready, hasked⟩
  · exact iff_of_true ⟨error, hperform⟩ hunready
  · refine iff_of_false ?_
      fun hunready => by simp [hunready target hsubmitted] at hready
    rintro ⟨error, h⟩
    -- the request was made, so this is not the desk from before
    rw [h] at hasked
    simpa using congrArg Desk.requests hasked.desk

def mixedDesk : Desk Unit :=
  .start
    (validAlone.repository.insert ((amendment "B").setStatus .uploaded)).2.2 ()

def submittedMixed : Except Error Status × Desk Unit :=
  (submitBatch accepting (Batch.load mixedDesk.repository "BSI")).perform
    mixedDesk

/--
A report that was only uploaded counts as submitted, and nobody asked for that.
-/
theorem submittedMixed_submits_uploaded :
    (Batch.load mixedDesk.repository "BSI").canBeSubmitted = false ∧
      submittedMixed.1 = .ok .submitted ∧
      submittedMixed.2.requests = [.submit "A"] ∧
      (mixedDesk.repository.get? 2).map (fun c => (c.senderId, c.status)) =
        some ("B", .uploaded) ∧
      (submittedMixed.2.repository.get? 2).map
        (fun c => (c.senderId, c.status)) =
        some ("B", .submitted) := by
  decide +kernel

end ReportDesk.Report
