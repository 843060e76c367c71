import ReportDesk.Log.Event
import ReportDesk.Report.Repository

/-!
# The desk that handles reports

A desk has a repository, a remote service in some state, the requests made to
the service so far, and the events it has logged.  A step changes the desk and
may fail; what was done before a failure stays done.  `perform` shows a step as
a function on desks, with one equation for each way to build a step.
-/

namespace ReportDesk.Report

structure Desk (σ : Type) where
  repository : Repository
  service : σ
  requests : List Request
  events : List Log.Event

def Desk.start {σ : Type} (repository : Repository) (service : σ) : Desk σ :=
  ⟨repository, service, [], []⟩

abbrev Step (σ α : Type) := ExceptT Error (StateM (Desk σ)) α

namespace Step

variable {σ α β : Type}

def repository : Step σ Repository := return (← get).repository

def update (report : Report) : Step σ Unit := do
  match (← repository).update report with
  | .ok repository => modify fun desk => { desk with repository }
  | .error error => throw error

/-- Changes the repository, also when the change fails. -/
def change (f : Repository → Except Error α × Repository) : Step σ α := do
  let (result, repository) := f (← repository)
  modify fun desk => { desk with repository }
  match result with
  | .ok value => return value
  | .error error => throw error

def ask (request : Request) (answer : σ → Except ServiceError α × σ) :
    Step σ α := do
  let desk ← get
  let (result, service) := answer desk.service
  set { desk with service, requests := desk.requests ++ [request] }
  match result with
  | .ok value => return value
  | .error error => throw (.service error)

def log (event : Log.Event) : Step σ Unit :=
  modify fun desk => { desk with events := desk.events ++ [event] }

def perform (step : Step σ α) (desk : Desk σ) : Except Error α × Desk σ :=
  step.run.run desk

/-! ## What the steps do to a desk -/

@[simp] theorem perform_pure (value : α) (desk : Desk σ) :
    (pure value : Step σ α).perform desk = (.ok value, desk) := rfl

@[simp] theorem perform_throw (error : Error) (desk : Desk σ) :
    (throw error : Step σ α).perform desk = (.error error, desk) := rfl

theorem perform_bind (step : Step σ α) (next : α → Step σ β) (desk : Desk σ) :
    (step >>= next).perform desk =
      match step.perform desk with
      | (.ok value, desk) => (next value).perform desk
      | (.error error, desk) => (.error error, desk) := by
  change (match step.perform desk with
    | (result, desk) => (ExceptT.bindCont next result).run desk) = _
  rcases step.perform desk with ⟨result, later⟩
  cases result <;> rfl

@[simp] theorem perform_get (desk : Desk σ) :
    (get : Step σ (Desk σ)).perform desk = (.ok desk, desk) := rfl

@[simp] theorem perform_set (desk later : Desk σ) :
    (set later : Step σ PUnit).perform desk = (.ok ⟨⟩, later) := rfl

@[simp] theorem perform_modify (f : Desk σ → Desk σ) (desk : Desk σ) :
    (modify f : Step σ PUnit).perform desk = (.ok ⟨⟩, f desk) := rfl

@[simp] theorem perform_repository (desk : Desk σ) :
    repository.perform desk = (.ok desk.repository, desk) := rfl

theorem perform_ask (request : Request) (answer : σ → Except ServiceError α × σ)
    (desk : Desk σ) :
    (ask request answer).perform desk =
      ((answer desk.service).1.mapError .service,
        { desk with
          service := (answer desk.service).2
          requests := desk.requests ++ [request] }) := by
  rcases h : answer desk.service with ⟨result, service⟩
  simp only [ask, perform_bind, perform_get, perform_set, h]
  cases result <;> rfl

theorem perform_update (report : Report) (desk : Desk σ) :
    (update report).perform desk =
      match desk.repository.update report with
      | .ok repository => (.ok (), { desk with repository })
      | .error error => (.error error, desk) := by
  simp only [update, perform_bind, perform_repository]
  cases desk.repository.update report <;> rfl

theorem perform_change (f : Repository → Except Error α × Repository)
    (desk : Desk σ) :
    (change f).perform desk =
      ((f desk.repository).1,
        { desk with repository := (f desk.repository).2 }) := by
  rcases h : f desk.repository with ⟨result, repository⟩
  simp only [change, perform_bind, perform_repository, perform_modify, h]
  cases result <;> rfl

end Step

end ReportDesk.Report
