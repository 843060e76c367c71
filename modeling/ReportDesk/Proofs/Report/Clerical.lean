import ReportDesk.Proofs.Report.Sending

/-!
# Where a step fails

An error comes from a check, from the service or from the store.  What follows a
request only works on the repository: it makes no further request, and it fails
nowhere but in the store.
-/

namespace ReportDesk.Report

variable {σ α β : Type}

inductive Origin where
  | check
  | service
  | store
deriving DecidableEq, Repr

def Error.origin : Error → Origin
  | .service _ => .service
  | .store _ => .store
  | .emptyBatch => .check
  | .mixedDataCollections _ _ => .check
  | .invalidTransition _ _ _ => .check
  | .missingAggregator _ => .check
  | .unsaved _ => .store

private theorem Repository.origin_of_update {r : Repository} {report : Report}
    {error : Error}
    (h : r.update report = .error error) : error.origin = .store := by
  unfold update at h
  split at h
  · cases h
    rfl
  · split at h
    · cases h
    · cases h
      rfl

private theorem FanOut.origin_of_updateAll {reports : List Report}
    {r : Repository} {error : Error}
    (h : (updateAll reports r).1 = .error error) : error.origin = .store := by
  induction reports generalizing r with
  | nil => cases h
  | cons report rest ih =>
      rw [updateAll] at h
      split at h
      next r' hupdate => exact ih h
      next error' hupdate =>
        cases h
        exact Repository.origin_of_update hupdate

private theorem FanOut.origin_of_commit {plan : FanOut} {r : Repository}
    {error : Error}
    (h : (plan.commit r).1 = .error error) : error.origin = .store := by
  unfold commit at h
  split at h
  · cases h
  next error' r' hupdate =>
    cases h
    exact origin_of_updateAll (congrArg Prod.fst hupdate)

namespace Step

/-! ## Steps on the repository -/

/--
The step works on the repository alone, and fails nowhere but in the store.
-/
structure Clerical (step : Step σ α) : Prop where
  desk : ∀ d, (step.perform d).2 =
    { d with repository := (step.perform d).2.repository }
  origin : ∀ d error, (step.perform d).1 = .error error → error.origin = .store

theorem clerical_pure (value : α) : (pure value : Step σ α).Clerical where
  desk := fun _ => rfl
  origin := fun _ _ h => by cases h

theorem clerical_throw {error : Error} (h : error.origin = .store) :
    (throw error : Step σ α).Clerical where
  desk := fun _ => rfl
  origin := fun _ _ hthrow => by
    cases hthrow
    exact h

theorem clerical_repository : (repository : Step σ Repository).Clerical where
  desk := fun _ => rfl
  origin := fun _ _ h => by cases h

theorem Clerical.bind {step : Step σ α} {next : α → Step σ β}
    (hstep : step.Clerical)
    (hnext : ∀ a, (next a).Clerical) : (step >>= next).Clerical := by
  constructor
  · intro d
    have hdesk := hstep.desk d
    rw [perform_bind]
    rcases hperform : step.perform d with ⟨result, d₁⟩
    rw [hperform] at hdesk
    cases result with
    | error error => exact hdesk
    | ok a =>
        obtain ⟨r, rfl⟩ : ∃ r, d₁ = { d with repository := r } := ⟨_, hdesk⟩
        exact (hnext a).desk _
  · intro d error h
    rcases perform_bind_error_cases (Prod.ext h rfl)
      with hfail | ⟨a, d₁, -, hfail⟩
    · exact hstep.origin d error (congrArg Prod.fst hfail)
    · exact (hnext a).origin d₁ error (congrArg Prod.fst hfail)

theorem clerical_update (report : Report) :
    (update report : Step σ Unit).Clerical := by
  constructor
  · intro d
    rw [perform_update]
    split <;> rfl
  · intro d error h
    rw [perform_update] at h
    split at h
    · cases h
    next error' hupdate =>
      cases h
      exact Repository.origin_of_update hupdate

theorem clerical_commit (plan : FanOut) :
    (change plan.commit : Step σ (List Report)).Clerical := by
  constructor
  · intro d
    rw [perform_change]
  · intro d error h
    rw [perform_change] at h
    exact FanOut.origin_of_commit h

/-! ## A request and the work after it -/

theorem perform_ask_ok {request : Request}
    {answer : σ → Except ServiceError α × σ} {d : Desk σ} {value : α}
    (h : (answer d.service).1 = .ok value) :
    (ask request answer).perform d =
      (.ok value, ⟨d.repository, (answer d.service).2, d.requests ++ [request],
        d.events⟩) := by
  rw [perform_ask, h]
  rfl

theorem perform_ask_error {request : Request}
    {answer : σ → Except ServiceError α × σ} {d : Desk σ} {e : ServiceError}
    (h : (answer d.service).1 = .error e) :
    (ask request answer).perform d = (.error (.service e),
      ⟨d.repository, (answer d.service).2, d.requests ++ [request],
        d.events⟩) := by
  rw [perform_ask, h]
  rfl

/--
One request was made, and whatever went wrong afterwards is the store's fault.
-/
structure Asked (request : Request) (state : σ) (d : Desk σ)
    (run : Except Error β × Desk σ) : Prop where
  desk : run.2 = ⟨run.2.repository, state, d.requests ++ [request], d.events⟩
  origin : ∀ error, run.1 = .error error → error.origin ≠ .check
  refused : ∀ e, run.1 = .error (.service e) → run.2.repository = d.repository

theorem asked_of_clerical {request : Request}
    {answer : σ → Except ServiceError α × σ} {next : α → Step σ β}
    (hnext : ∀ value, (next value).Clerical) (d : Desk σ) :
    Asked request (answer d.service).2 d
      ((ask request answer >>= next).perform d) := by
  cases hanswer : (answer d.service).1 with
  | error e =>
      rw [perform_bind_error (perform_ask_error hanswer)]
      refine ⟨rfl, fun error herror => ?_, fun _ _ => rfl⟩
      cases herror
      exact Origin.noConfusion
  | ok value =>
      rw [perform_bind_ok (perform_ask_ok hanswer)]
      refine ⟨(hnext value).desk _, fun error herror => ?_, fun e herror => ?_⟩
      · rw [(hnext value).origin _ error herror]
        exact Origin.noConfusion
      · cases (hnext value).origin _ _ herror

end Step

end ReportDesk.Report
