import ReportDesk.Proofs.Report.Clerical
import ReportDesk.Proofs.Report.Restating

/-!
# What submitting and refreshing do to the stored reports

Each of these steps has a few outcomes.  An outcome says which slots have
changed, whatever the service answered and wherever the step stopped.
-/

namespace ReportDesk.Report

variable {σ : Type} {service : Service σ} {batch : Batch} {d : Desk σ}

/-! ## Submitting -/

inductive Submits (s : Shelf) (reports : List Report)
    (answered : Status → Prop) :
    Shelf → Prop where
  | refused : Submits s reports answered s
  | done {first target : Report} {rest : List Report} {id : RowId}
      {status : Status}
      (hreports : reports = first :: rest)
      (htarget : first.aggregatorId = none ∧ target = first ∨
        first.aggregatorRowId = some id)
      (hslot : s.slot id = some target) (hanswer : answered status) :
      Submits s reports answered ((s.put id (target.setStatus status)).write
        ((reports.filter fun r => r.id != some id).map fun r =>
          r.setStatus status))

theorem perform_submitTarget (first : Report) (d : Desk σ) :
    (∃ text, (submitTarget first).perform d =
        (.error (.missingAggregator text), d)) ∨
      ∃ target, (submitTarget first).perform d = (.ok target, d) ∧
        (first.aggregatorId = none ∧ target = first ∨
          ∃ id, first.aggregatorRowId = some id ∧
            d.repository.shelf.slot id = some target) := by
  unfold submitTarget
  split
  next hnone => exact .inr ⟨first, rfl, .inl ⟨hnone, rfl⟩⟩
  next aggregatorId hsome =>
    rw [Step.perform_bind_ok (Step.perform_repository d)]
    split
    next target hget =>
      obtain ⟨id, hrow, hslot⟩ := Option.bind_eq_some_iff.mp hget
      exact .inr ⟨target, rfl, .inr ⟨id, hrow, hslot⟩⟩
    next => exact .inl ⟨_, rfl⟩

/--
The report that a batch is submitted as: the stored aggregator of its first
report, or that report itself when it has none.
-/
inductive Batch.SubmittedAs (r : Repository) (batch : Batch) (target : Report) :
    Prop where
  | first {rest : List Report} (hreports : batch.reports = target :: rest)
      (hnone : target.aggregatorId = none)
  | aggregator {first : Report} {rest : List Report} {id : RowId}
      (hreports : batch.reports = first :: rest)
      (hrow : first.aggregatorRowId = some id)
      (hstored : r.get? id = some target)

theorem Batch.SubmittedAs.stored {r : Repository} {target : Report}
    (h : batch.SubmittedAs r target)
    (hstored : ∀ c ∈ batch.reports, ∃ id, r.shelf.slot id = some c) :
    ∃ id, r.shelf.slot id = some target := by
  cases h with
  | first hreports => exact hstored target (by simp [hreports])
  | aggregator _ _ hget => exact ⟨_, hget⟩

theorem perform_submitTarget_ok {first target : Report} {rest : List Report}
    (h : batch.SubmittedAs d.repository target)
    (hreports : batch.reports = first :: rest) :
    (submitTarget first).perform d = (.ok target, d) := by
  unfold submitTarget
  cases h with
  | first hreports' hnone =>
      rw [hreports, List.cons.injEq] at hreports'
      obtain ⟨rfl, -⟩ := hreports'
      rw [hnone]
      rfl
  | aggregator hreports' hrow hget =>
      rw [hreports, List.cons.injEq] at hreports'
      obtain ⟨rfl, -⟩ := hreports'
      split
      next hnone => simp [aggregatorRowId, hnone] at hrow
      next aggregatorId hsome =>
        rw [Step.perform_bind_ok (Step.perform_repository d), hrow,
          Option.bind_some, hget]
        rfl

def settle (target : Report) (reports : List Report) (status : Status) :
    Step σ Status := do
  Step.update (target.setStatus status)
  let others := reports.filter fun r => r.id != (target.setStatus status).id
  let _ ← Step.change (FanOut.assign status others).commit
  return status

theorem submitBatch_cases (service : Service σ) (batch : Batch) (d : Desk σ) :
    (∃ error, error.origin = .check ∧
        (submitBatch service batch).perform d = (.error error, d) ∧
        ∀ target, batch.SubmittedAs d.repository target →
          target.status.canBeSubmitted = false) ∨
      ∃ target, batch.SubmittedAs d.repository target ∧
        target.status.canBeSubmitted = true ∧
        (submitBatch service batch).perform d =
          (Step.ask (.submit target.senderId) (service.submit target) >>=
            settle target batch.reports).perform d := by
  unfold submitBatch
  split
  next hempty =>
    refine .inl ⟨_, rfl, rfl, fun target h => ?_⟩
    cases h with
    | first hreports => simp [hempty] at hreports
    | aggregator hreports => simp [hempty] at hreports
  next first rest hreports =>
    rcases perform_submitTarget first d
      with ⟨text, htarget⟩ | ⟨target, htarget, hwhich⟩
    · refine .inl ⟨_, rfl, Step.perform_bind_error htarget, fun target h => ?_⟩
      rw [perform_submitTarget_ok h hreports] at htarget
      cases htarget
    · rw [Step.perform_bind_ok htarget]
      have hsubmitted : batch.SubmittedAs d.repository target := by
        rcases hwhich with ⟨hnone, rfl⟩ | ⟨id, hrow, hslot⟩
        · exact .first hreports hnone
        · exact .aggregator hreports hrow hslot
      split
      next hready => exact .inr ⟨target, hsubmitted, hready, rfl⟩
      next hready =>
        refine .inl ⟨_, rfl, rfl, fun target' h => ?_⟩
        rw [perform_submitTarget_ok h hreports] at htarget
        cases htarget
        exact Bool.eq_false_iff.mpr hready

theorem perform_settle {target : Report} {reports : List Report} {id : RowId}
    (status : Status) (hfiled : d.repository.shelf.Filed)
    (hslot : d.repository.shelf.slot id = some target)
    (hstored : ∀ c ∈ reports, ∃ i, d.repository.shelf.slot i = some c) :
    ∃ r, (settle target reports status).perform d =
        (.ok status, { d with repository := r }) ∧
      r.shelf = (d.repository.shelf.put id (target.setStatus status)).write
        ((reports.filter fun r => r.id != some id).map fun r =>
          r.setStatus status) ∧
      d.repository.SameElsewhere r := by
  have hkeep := keeps_setStatus target status
  let plan := FanOut.assign status (reports.filter fun r => r.id != some id)
  obtain ⟨r₁, r₂, hupdate, hshelf₁, hcommit, hshelf₂, helsewhere⟩ :=
    Repository.exists_update_commit (fun _ => plan) hfiled hslot hkeep
      fun r₁ hshelf₁ report hreport => by
        obtain ⟨c, hc, rfl⟩ := List.mem_map.mp hreport
        obtain ⟨i, hslot'⟩ := hstored c (List.mem_filter.mp hc).1
        rw [hshelf₁]
        exact ((hfiled.stores hslot').keeps (keeps_setStatus c status)).put
  refine ⟨r₂, ?_, ?_, helsewhere⟩
  · have hwrite : (Step.update (target.setStatus status)).perform d =
        (.ok (), { d with repository := r₁ }) := by
      rw [Step.perform_update, hupdate]
    have hchange :=
      Step.perform_change_of_eq (d := { d with repository := r₁ }) hcommit
    unfold settle
    rw [hkeep.id, hfiled.id hslot, Step.perform_bind_ok hwrite,
      Step.perform_bind_ok hchange, Step.perform_pure]
  · rw [hshelf₂, hshelf₁]
    exact Shelf.dropAll_nil _

theorem submitBatch_submits (hfiled : d.repository.shelf.Filed)
    (hstored : ∀ c ∈ batch.reports, ∃ id, d.repository.shelf.slot id = some c) :
    Submits d.repository.shelf batch.reports
      (fun status => ∃ target state,
        (service.submit target state).1 = .ok status)
      ((submitBatch service batch).perform d).2.repository.shelf := by
  rcases submitBatch_cases service batch d with
    ⟨error, -, hperform, -⟩ | ⟨target, hsubmitted, -, hperform⟩
  · rw [hperform]
    exact .refused
  · rw [hperform]
    cases hanswer : (service.submit target d.service).1 with
    | error e =>
        rw [Step.perform_bind_error (Step.perform_ask_error hanswer)]
        exact .refused
    | ok status =>
        obtain ⟨first, rest, id, hreports, hslot, htarget⟩ : ∃ first rest id,
            batch.reports = first :: rest ∧
              d.repository.shelf.slot id = some target ∧
              (first.aggregatorId = none ∧ target = first ∨
                first.aggregatorRowId = some id) := by
          cases hsubmitted with
          | first hreports hnone =>
              obtain ⟨id, hslot⟩ := hstored target (by simp [hreports])
              exact ⟨target, _, id, hreports, hslot, .inl ⟨hnone, rfl⟩⟩
          | aggregator hreports hrow hget =>
              exact ⟨_, _, _, hreports, hget, .inr hrow⟩
        rw [Step.perform_bind_ok (Step.perform_ask_ok hanswer)]
        obtain ⟨r, hsettle, hshelf, -⟩ := perform_settle status
          (d := ⟨d.repository, (service.submit target d.service).2,
            d.requests ++ [.submit target.senderId], d.events⟩) hfiled
            hslot hstored
        rw [hsettle, hshelf]
        exact .done hreports htarget hslot ⟨target, d.service, hanswer⟩

theorem Submits.filed {s s' : Shelf} {reports : List Report}
    {answered : Status → Prop} (hfiled : s.Filed)
    (hstored : ∀ c ∈ reports, ∃ id, s.slot id = some c)
    (h : Submits s reports answered s') : s'.Filed ∧ s.last ≤ s'.last := by
  cases h with
  | refused => exact ⟨hfiled, Nat.le_refl _⟩
  | @done first target rest id status _ _ hslot =>
      refine ⟨(hfiled.put_keeps hslot (keeps_setStatus target status)).write
        fun c' hc' => ?_, ?_⟩
      · obtain ⟨c, hc, rfl⟩ := List.mem_map.mp hc'
        obtain ⟨id', hslot'⟩ := hstored c (List.mem_filter.mp hc).1
        exact ((hfiled.stores hslot').keeps (keeps_setStatus c status)).put
      · rw [Shelf.last_write]
        exact Nat.le_refl _

/-! ## Refreshing -/

def detached (status : Status) (r : Report) : Report :=
  (r.setStatus status).setAggregatorId none

theorem keeps_detached (status : Status) (c : Report) :
    c.Keeps (detached status c) :=
  (keeps_setStatus c status).trans (keeps_setAggregatorId _ none)

inductive Refreshes (s : Shelf) (report : Report) : Shelf → Prop where
  | refused : Refreshes s report s
  | alone {id : RowId} (status : Status) (hslot : s.slot id = some report)
      (hlink : report.aggregatorRowId.bind s.slot = none) :
      Refreshes s report (s.put id (report.setStatus status))
  | followed {g : RowId} {a : Report} {status : Status}
      {followers : List Report}
      (hrow : report.aggregatorRowId = some g) (hslot : s.slot g = some a)
      (hlive : status.isFinalized = false)
      (hnodup : followers.Pairwise fun a b => a.id ≠ b.id)
      (hfollowers : ∀ c, c ∈ followers ↔
        (∃ id, (s.put g (a.setStatus status)).slot id = some c) ∧
          c.text Columns.aggregatorId = g.text) :
      Refreshes s report ((s.put g (a.setStatus status)).write
        (followers.map fun c => c.setStatus status))
  | released {g : RowId} {a : Report} {status : Status}
      {followers : List Report}
      {versions : List RowId}
      (hrow : report.aggregatorRowId = some g) (hslot : s.slot g = some a)
      (hnodup : followers.Pairwise fun a b => a.id ≠ b.id)
      (hfollowers : ∀ c, c ∈ followers ↔
        (∃ id, (s.put g (a.setStatus status)).slot id = some c) ∧
          c.text Columns.aggregatorId = g.text)
      (hversions : ∀ id, id ∈ versions ↔ ∃ r,
        (s.put g (a.setStatus status)).slot id = some r ∧
          r.senderId = a.senderId) :
      Refreshes s report (((s.put g (a.setStatus status)).write
        (followers.map fun c =>
          (c.setStatus status).setAggregatorId none)).dropAll versions)

theorem refreshAlone_refreshes {report : Report} {id : RowId}
    (hfiled : d.repository.shelf.Filed)
    (hslot : d.repository.shelf.slot id = some report)
    (hlink : report.aggregatorRowId.bind d.repository.shelf.slot = none) :
    Refreshes d.repository.shelf report
      ((refreshAlone service report).perform d).2.repository.shelf := by
  unfold refreshAlone
  have hkeep := keeps_setStatus report
  refine Step.shelf_exchange
    (fun status => (hkeep status).id.trans (hfiled.id hslot))
    (fun status => (hfiled.stores hslot).keeps (hkeep status)) .refused
    fun status d' _ hshelf => ?_
  rw [Step.perform_pure, hshelf]
  exact .alone status hslot hlink

private theorem stores_follow {aggregator : Report}
    {followers versions : List Report} {s : Shelf}
    (hstores : ∀ c ∈ followers, s.Stores c) :
    ∀ report ∈ (FanOut.follow aggregator followers versions).updates,
      s.Stores report := by
  intro report hreport
  rw [FanOut.follow] at hreport
  split at hreport
  · obtain ⟨c, hc, rfl⟩ := List.mem_map.mp hreport
    exact (hstores c hc).keeps (keeps_detached aggregator.status c)
  · obtain ⟨c, hc, rfl⟩ := List.mem_map.mp hreport
    exact (hstores c hc).keeps (keeps_setStatus c aggregator.status)

theorem perform_refreshAggregator_ok {aggregator : Report} {g : RowId}
    {status : Status} (hfiled : d.repository.shelf.Filed)
    (hslot : d.repository.shelf.slot g = some aggregator)
    (hanswer : (service.fetchStatus aggregator d.service).1 = .ok status) :
    ∃ (r : Repository) (followers : List Report) (versions : List RowId),
      (refreshAggregator service aggregator).perform d =
        (.ok (aggregator.setStatus status),
          ⟨r, (service.fetchStatus aggregator d.service).2,
            d.requests ++ [.fetchStatus aggregator.senderId], d.events⟩) ∧
      followers.Pairwise (fun a b => a.id ≠ b.id) ∧
      (∀ c, c ∈ followers ↔
        (∃ id, (d.repository.shelf.put g (aggregator.setStatus status)).slot
          id = some c) ∧
          c.text Columns.aggregatorId = g.text) ∧
      (∀ id, id ∈ versions ↔
        ∃ r, (d.repository.shelf.put g (aggregator.setStatus status)).slot id =
            some r ∧
          r.senderId = aggregator.senderId) ∧
      (r.shelf = if status.isFinalized then
          ((d.repository.shelf.put g (aggregator.setStatus status)).write
            (followers.map (detached status))).dropAll versions
        else (d.repository.shelf.put g (aggregator.setStatus status)).write
          (followers.map fun c => c.setStatus status)) ∧
      d.repository.SameElsewhere r := by
  have hkeep := keeps_setStatus aggregator status
  let plan (r : Repository) : FanOut :=
    FanOut.follow (aggregator.setStatus status) (r.withAggregator g)
    (if status.isFinalized
      then r.versions (aggregator.setStatus status).senderId else [])
  have hfiled₁ : ∀ r₁ : Repository,
      r₁.shelf = d.repository.shelf.put g (aggregator.setStatus status) →
        r₁.shelf.Filed := by
    intro r₁ hshelf₁
    rw [hshelf₁]
    exact hfiled.put_keeps hslot hkeep
  obtain ⟨r₁, r₂, hupdate, hshelf₁, hcommit, hshelf₂, helsewhere⟩ :=
    Repository.exists_update_commit plan hfiled hslot hkeep fun r₁ hshelf₁ =>
      stores_follow fun c hc => by
        obtain ⟨⟨id, hslot'⟩, -⟩ := Repository.mem_withCode.mp hc
        exact (hfiled₁ r₁ hshelf₁).stores hslot'
  refine ⟨r₂, r₁.withAggregator g,
    (r₁.versions aggregator.senderId).filterMap Report.id, ?_, ?_, fun c => ?_,
    fun id => ?_, ?_, helsewhere⟩
  · let d₁ : Desk σ :=
      ⟨d.repository, (service.fetchStatus aggregator d.service).2,
        d.requests ++ [.fetchStatus aggregator.senderId], d.events⟩
    have hwrite : (Step.update (aggregator.setStatus status)).perform d₁ =
        (.ok (), { d₁ with repository := r₁ }) := by
      rw [Step.perform_update, hupdate]
    have hchange :=
      Step.perform_change_of_eq (d := { d₁ with repository := r₁ }) hcommit
    unfold refreshAggregator
    rw [hfiled.id hslot]
    simp only
    rw [Step.perform_bind_ok (Step.perform_ask_ok hanswer),
      Step.perform_bind_ok hwrite,
      Step.perform_bind_ok (Step.perform_repository _),
      Step.perform_bind_ok hchange, Step.perform_pure]
  · rw [Repository.withAggregator, Repository.withCode_eq]
    exact (Repository.nodup_all (hfiled₁ r₁ hshelf₁)).filter _
  · rw [Repository.withAggregator, Repository.mem_withCode, hshelf₁]
  · rw [Repository.mem_versions (hfiled₁ r₁ hshelf₁), hshelf₁]
  · rw [hshelf₂, hshelf₁]
    simp only [plan, FanOut.follow, status_setStatus, hkeep.senderId]
    cases hfinal : status.isFinalized with
    | false => simp
    | true => simp only [if_true]; rfl

variable (service) in
theorem perform_refreshAggregator {aggregator : Report} {g : RowId}
    (hfiled : d.repository.shelf.Filed)
    (hslot : d.repository.shelf.slot g = some aggregator) :
    (∃ error d', (refreshAggregator service aggregator).perform d =
      (.error error, d') ∧
        d'.repository = d.repository) ∨
      ∃ (status : Status) (d' : Desk σ) (followers : List Report) (versions :
          List RowId),
        (refreshAggregator service aggregator).perform d =
          (.ok (aggregator.setStatus status), d') ∧
        followers.Pairwise (fun a b => a.id ≠ b.id) ∧
        (∀ c, c ∈ followers ↔
          (∃ id,
              (d.repository.shelf.put g (aggregator.setStatus status)).slot id =
              some c) ∧
            c.text Columns.aggregatorId = g.text) ∧
        (∀ id, id ∈ versions ↔ ∃ r,
          (d.repository.shelf.put g (aggregator.setStatus status)).slot id =
              some r ∧
            r.senderId = aggregator.senderId) ∧
        d'.repository.shelf = if status.isFinalized then
          ((d.repository.shelf.put g (aggregator.setStatus status)).write
            (followers.map (detached status))).dropAll versions
        else (d.repository.shelf.put g (aggregator.setStatus status)).write
          (followers.map fun c => c.setStatus status) := by
  cases hanswer : (service.fetchStatus aggregator d.service).1 with
  | error e =>
      left
      unfold refreshAggregator
      rw [hfiled.id hslot]
      exact ⟨_, _, Step.perform_bind_error (Step.perform_ask_error hanswer),
        rfl⟩
  | ok status =>
      right
      obtain ⟨r, followers, versions, hperform, hnodup, hfollowers, hversions,
          hshelf, -⟩ :=
        perform_refreshAggregator_ok hfiled hslot hanswer
      exact ⟨status, _, followers, versions, hperform, hnodup, hfollowers,
        hversions, hshelf⟩

theorem refreshAggregator_refreshes {report aggregator : Report} {g : RowId}
    (hfiled : d.repository.shelf.Filed) (hrow : report.aggregatorRowId = some g)
    (hslot : d.repository.shelf.slot g = some aggregator) :
    Refreshes d.repository.shelf report
      ((refreshAggregator service aggregator).perform
        d).2.repository.shelf := by
  rcases perform_refreshAggregator service hfiled hslot with
    ⟨error, d', hperform, hkept⟩ |
    ⟨status, d', followers, versions, hperform, hnodup, hfollowers,
      hversions, hshelf⟩
  · rw [hperform, hkept]
    exact .refused
  · rw [hperform, hshelf]
    cases hfinal : status.isFinalized with
    | false => exact .followed hrow hslot hfinal hnodup hfollowers
    | true => exact .released hrow hslot hnodup hfollowers hversions

theorem refreshStatus_refreshes {report : Report} {id : RowId}
    (hfiled : d.repository.shelf.Filed)
    (hslot : d.repository.shelf.slot id = some report) :
    Refreshes d.repository.shelf report
      ((refreshStatus service report).perform d).2.repository.shelf := by
  unfold refreshStatus
  split
  next hnone =>
    refine refreshAlone_refreshes hfiled hslot ?_
    rw [aggregatorRowId, hnone]
    rfl
  next aggregatorId hsome =>
    rw [Step.perform_bind_ok (Step.perform_repository d)]
    split
    next aggregator hget =>
      obtain ⟨g, hrow, hslot'⟩ := Option.bind_eq_some_iff.mp hget
      exact refreshAggregator_refreshes hfiled hrow hslot'
    next hget =>
      rw [Step.perform_bind_ok (Step.perform_log _ d)]
      let warned : Desk σ :=
        { d with events :=
            d.events ++ [.aggregatorMissing report.senderId aggregatorId] }
      exact refreshAlone_refreshes (d := warned) hfiled hslot hget

theorem Refreshes.filed {s s' : Shelf} {report : Report} (hfiled : s.Filed)
    (h : Refreshes s report s') : s'.Filed ∧ s.last ≤ s'.last := by
  cases h with
  | refused => exact ⟨hfiled, Nat.le_refl _⟩
  | alone status hslot =>
      exact ⟨hfiled.put_keeps hslot (keeps_setStatus report status),
        Nat.le_refl _⟩
  | @followed g a status followers _ hslot _ _ hfollowers =>
      have hfiled' := hfiled.put_keeps hslot (keeps_setStatus a status)
      refine ⟨hfiled'.write fun c' hc' => ?_, ?_⟩
      · obtain ⟨c, hc, rfl⟩ := List.mem_map.mp hc'
        obtain ⟨⟨id, hslot'⟩, -⟩ := (hfollowers c).mp hc
        exact (hfiled'.stores hslot').keeps (keeps_setStatus c status)
      · rw [Shelf.last_write]
        exact Nat.le_refl _
  | @released g a status followers versions _ hslot _ hfollowers =>
      have hfiled' := hfiled.put_keeps hslot (keeps_setStatus a status)
      refine ⟨(hfiled'.write fun c' hc' => ?_).dropAll versions, ?_⟩
      · obtain ⟨c, hc, rfl⟩ := List.mem_map.mp hc'
        obtain ⟨⟨id, hslot'⟩, -⟩ := (hfollowers c).mp hc
        exact (hfiled'.stores hslot').keeps (keeps_detached status c)
      · change s.last ≤ (Shelf.write _ _).last
        rw [Shelf.last_write]
        exact Nat.le_refl _

end ReportDesk.Report
