import ReportDesk.Proofs.Report.FailedSend

/-!
# What a failed operation leaves

Sending and submitting check their reports before they do anything else, and
submitting and refreshing write nothing before the service has answered.
-/

namespace ReportDesk.Report

variable {σ : Type}

/-! ## The ways of an operation -/

/--
The reports of a batch are not ready: there are none, or one of them is in a
wrong status.
-/
inductive Error.Unready : Error → Prop where
  | emptyBatch : Unready .emptyBatch
  | invalidTransition (senderId : String) (status : Status) (intent : Intent) :
      Unready (.invalidTransition senderId status intent)

theorem Error.Unready.origin {error : Error} (h : error.Unready) :
    error.origin = .check := by
  cases h with
  | emptyBatch => rfl
  | invalidTransition senderId status intent => rfl

private theorem Batch.canBeSent_iff {batch : Batch} :
    batch.canBeSent = true ↔ batch.reports ≠ [] ∧
      batch.reports.find? (fun r => !r.status.canBeSent) = none := by
  simp [canBeSent, isEmpty, List.isEmpty_eq_false_iff]

private theorem ne_nil_of_sendTarget {reports : List Report}
    {result : Except Error Report} {d d' : Desk σ}
    (h : (sendTarget reports).perform d = (result, d'))
    (hresult : result ≠ .error .emptyBatch) : reports ≠ [] := by
  rintro rfl
  cases h
  exact hresult rfl

theorem sendBatch_refused_or_asked (service : Service σ) (batch : Batch)
    (d : Desk σ) :
    (batch.canBeSent = false ∧ ∃ error, error.Unready ∧
        (sendBatch service batch).perform d = (.error error, d)) ∨
      (batch.canBeSent = true ∧ ∃ expected found,
        (sendBatch service batch).perform d =
        (.error (.mixedDataCollections expected found), d)) ∨
      batch.canBeSent = true ∧ ∃ target d₁,
        (sendTarget batch.reports).perform d = (.ok target, d₁) ∧
        Step.Asked (.send target.senderId) (service.send target d₁.service).2 d₁
          ((sendBatch service batch).perform d) := by
  obtain ⟨deliver, hclerical, heq⟩ := exists_sendBatch_eq service batch
  rw [heq]
  cases hblocked : batch.reports.find? fun r => !r.status.canBeSent with
  | some blocked =>
      have hready : batch.canBeSent = false := by
        rw [Bool.eq_false_iff, ne_eq, Batch.canBeSent_iff]
        simp [hblocked]
      exact .inl ⟨hready, _, .invalidTransition _ _ _, rfl⟩
  | none =>
      simp only
      have hready (hne : batch.reports ≠ []) : batch.canBeSent = true :=
        Batch.canBeSent_iff.mpr ⟨hne, hblocked⟩
      rcases htarget : (sendTarget batch.reports).perform d with ⟨result, d₁⟩
      cases result with
      | error error =>
          rw [Step.perform_bind_error htarget]
          obtain ⟨rfl, ⟨hempty, rfl⟩ | ⟨expected, found, rfl⟩⟩ :=
            error_of_sendTarget htarget
          · have hunready : batch.canBeSent = false := by
              simp [Batch.canBeSent, Batch.isEmpty, hempty]
            exact .inl ⟨hunready, _, .emptyBatch, rfl⟩
          · exact .inr
              (.inl ⟨hready (ne_nil_of_sendTarget htarget (by simp)),
                _, _, rfl⟩)
      | ok target =>
          rw [Step.perform_bind_ok htarget]
          exact .inr (.inr
            ⟨hready (ne_nil_of_sendTarget htarget (by simp)), target, d₁, rfl,
              Step.asked_of_clerical (hclerical target) d₁⟩)

private theorem clerical_settle (target : Report) (reports : List Report)
    (status : Status) :
    (settle target reports status : Step σ Status).Clerical :=
  Step.Clerical.bind (Step.clerical_update _) fun _ =>
    Step.Clerical.bind (Step.clerical_commit _) fun _ => Step.clerical_pure _

theorem submitBatch_refused_or_asked (service : Service σ) (batch : Batch)
    (d : Desk σ) :
    (∃ error, error.origin = .check ∧
        (submitBatch service batch).perform d = (.error error, d) ∧
        ∀ target, batch.SubmittedAs d.repository target →
          target.status.canBeSubmitted = false) ∨
      ∃ target, batch.SubmittedAs d.repository target ∧
        target.status.canBeSubmitted = true ∧
        Step.Asked (.submit target.senderId)
          (service.submit target d.service).2 d
          ((submitBatch service batch).perform d) := by
  rcases submitBatch_cases service batch d
    with hrefused | ⟨target, hsubmitted, hready, hperform⟩
  · exact .inl hrefused
  · refine .inr ⟨target, hsubmitted, hready, ?_⟩
    rw [hperform]
    exact Step.asked_of_clerical (clerical_settle target batch.reports) d

theorem asked_refreshAlone (service : Service σ) (report : Report)
    (d : Desk σ) :
    Step.Asked (.fetchStatus report.senderId)
      (service.fetchStatus report d.service).2 d
      ((refreshAlone service report).perform d) :=
  Step.asked_of_clerical
    (fun _ => Step.Clerical.bind (Step.clerical_update _) fun _ =>
      Step.clerical_pure _) d

private theorem asked_refreshAggregator (service : Service σ)
    {aggregator : Report} {id : RowId} (hid : aggregator.id = some id)
    (d : Desk σ) :
    Step.Asked (.fetchStatus aggregator.senderId)
      (service.fetchStatus aggregator d.service).2 d
      ((refreshAggregator service aggregator).perform d) := by
  unfold refreshAggregator
  rw [hid]
  exact Step.asked_of_clerical
    (fun _ => Step.Clerical.bind (Step.clerical_update _) fun _ =>
      Step.Clerical.bind Step.clerical_repository fun _ =>
        Step.Clerical.bind (Step.clerical_commit _) fun _ =>
          Step.clerical_pure _) d

/-! ## What is left -/

/-- One request was made, and what is stored did not change. -/
def AskedInVain (d d' : Desk σ) : Prop :=
  d'.repository = d.repository ∧ ∃ request,
    d'.requests = d.requests ++ [request]

theorem Step.Asked.inVain {β : Type} {request : Request} {state : σ}
    {d d' : Desk σ} {run : Except Error β × Desk σ} {e : ServiceError}
    (h : Step.Asked request state d run)
    (hrun : run = (.error (.service e), d')) : AskedInVain d d' := by
  subst hrun
  exact ⟨h.refused e rfl, request, congrArg Desk.requests h.desk⟩

section

variable {service : Service σ} {batch : Batch} {report : Report} {d d' : Desk σ}
  {error : Error} {e : ServiceError}

theorem exists_unready_sendBatch_iff :
    (∃ error d', (sendBatch service batch).perform d = (.error error, d') ∧
        error.Unready) ↔
      batch.canBeSent = false := by
  rcases sendBatch_refused_or_asked service batch d with
    ⟨hready, error, hunready, hperform⟩ | ⟨hready, expected, found, hperform⟩ |
    ⟨hready, target, d₁, -, hasked⟩
  · exact iff_of_true ⟨error, d, hperform, hunready⟩ hready
  · refine iff_of_false ?_ (by simp [hready])
    rintro ⟨error, d', h, hunready⟩
    rw [hperform] at h
    cases h
    cases hunready
  · refine iff_of_false ?_ (by simp [hready])
    rintro ⟨error, d', h, hunready⟩
    exact hasked.origin error (congrArg Prod.fst h) hunready.origin

private theorem eq_of_sendBatch_check
    (h : (sendBatch service batch).perform d = (.error error, d'))
    (hcheck : error.origin = .check) : d' = d := by
  rcases sendBatch_refused_or_asked service batch d with
    ⟨-, error', -, hperform⟩ | ⟨-, expected, found, hperform⟩
      | ⟨-, target, d₁, -, hasked⟩
  · exact congrArg Prod.snd (h.symm.trans hperform)
  · exact congrArg Prod.snd (h.symm.trans hperform)
  · exact absurd hcheck (hasked.origin error (congrArg Prod.fst h))

private theorem eq_of_submitBatch_check
    (h : (submitBatch service batch).perform d = (.error error, d'))
    (hcheck : error.origin = .check) : d' = d := by
  rcases submitBatch_refused_or_asked service batch d with
    ⟨error', -, hperform, -⟩ | ⟨target, -, -, hasked⟩
  · exact congrArg Prod.snd (h.symm.trans hperform)
  · exact absurd hcheck (hasked.origin error (congrArg Prod.fst h))

theorem askedInVain_submitBatch
    (h : (submitBatch service batch).perform d = (.error (.service e), d')) :
    AskedInVain d d' := by
  rcases submitBatch_refused_or_asked service batch d with
    ⟨error, hcheck, hperform, -⟩ | ⟨target, -, -, hasked⟩
  · rw [hperform] at h
    cases h
    cases hcheck
  · exact hasked.inVain h

theorem askedInVain_refreshStatus
    (h : (refreshStatus service report).perform d = (.error (.service e), d')) :
    AskedInVain d d' := by
  unfold refreshStatus at h
  split at h
  next => exact (asked_refreshAlone service report d).inVain h
  next aggregatorId haggregated =>
    rw [Step.perform_bind_ok (Step.perform_repository d)] at h
    split at h
    next aggregator hget =>
      cases hid : aggregator.id with
      | none => simp [refreshAggregator, hid] at h
      | some id => exact (asked_refreshAggregator service hid d).inVain h
    next =>
      rw [Step.perform_bind_ok (Step.perform_log _ d)] at h
      let warned : Desk σ :=
        { d with events :=
            d.events ++ [.aggregatorMissing report.senderId aggregatorId] }
      have hvain : AskedInVain warned d' :=
        (asked_refreshAlone service report warned).inVain h
      exact hvain

end

/--
A send finds its reports not ready exactly when they cannot be sent.  A send or
a submission that fails in a check was not made, and the desk is the same; a
submission or a refresh that the service refuses was asked for once, and the
repository is the same.
-/
theorem repository_of_failure (service : Service σ) (batch : Batch)
    (report : Report) (d : Desk σ) :
    ((∃ error d', (sendBatch service batch).perform d = (.error error, d') ∧
      error.Unready) ↔
        batch.canBeSent = false) ∧
      (∀ error d', (sendBatch service batch).perform d = (.error error, d') →
        error.origin = .check → d' = d) ∧
      (∀ error d', (submitBatch service batch).perform d = (.error error, d') →
        error.origin = .check → d' = d) ∧
      (∀ e d', (submitBatch service batch).perform d =
          (.error (.service e), d') →
        AskedInVain d d') ∧
      ∀ e d', (refreshStatus service report).perform d =
          (.error (.service e), d') →
        AskedInVain d d' :=
  ⟨exists_unready_sendBatch_iff, fun _ _ => eq_of_sendBatch_check,
    fun _ _ => eq_of_submitBatch_check, fun _ _ => askedInVain_submitBatch,
    fun _ _ => askedInVain_refreshStatus⟩

def validAlone : Desk Unit :=
  .start (Repository.empty.insert ((amendment "A").setStatus .valid)).2.2 ()

def validBatch : Batch := Batch.load validAlone.repository "BSI"

def validReport : Report := (validAlone.repository.get? 1).getD (amendment "A")

theorem repository_of_failure_validAlone :
    (∃ error d', (sendBatch refusing validBatch).perform validAlone =
      (.error error, d') ∧
        error.Unready ∧ d' = validAlone) ∧
      (∃ d', (submitBatch refusing validBatch).perform validAlone =
        (.error (.service (.unavailable "timeout")), d') ∧
          AskedInVain validAlone d') ∧
      ∃ d', (refreshStatus refusing validReport).perform validAlone =
        (.error (.service (.unavailable "timeout")), d') ∧
          AskedInVain validAlone d' := by
  have hready : validBatch.canBeSent = false := by decide +kernel
  have hsubmit : ((submitBatch refusing validBatch).perform validAlone).1 =
      .error (.service (.unavailable "timeout")) := by decide +kernel
  have hrefresh : ((refreshStatus refusing validReport).perform validAlone).1 =
      .error (.service (.unavailable "timeout")) := by decide +kernel
  obtain ⟨hunready, hkept, -, hsubmitted, hrefreshed⟩ :=
    repository_of_failure refusing validBatch validReport validAlone
  obtain ⟨error, d', hsend, herror⟩ := hunready.mpr hready
  exact ⟨⟨error, d', hsend, herror, hkept error d' hsend herror.origin⟩,
    ⟨_, Prod.ext hsubmit rfl, hsubmitted _ _ (Prod.ext hsubmit rfl)⟩,
    ⟨_, Prod.ext hrefresh rfl, hrefreshed _ _ (Prod.ext hrefresh rfl)⟩⟩

end ReportDesk.Report
