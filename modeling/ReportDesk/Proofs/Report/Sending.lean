import ReportDesk.Proofs.Report.Cells
import ReportDesk.Proofs.Report.Shelf
import ReportDesk.Report.Exchange

/-!
# What sending does to the stored reports

A report that is sent alone takes its receipt.  Several reports get a new
aggregator, which is stored before the service is asked; once the service has
taken it, the reports follow it and the rows under its sender id are removed.
-/

namespace ReportDesk.Report

variable {σ α : Type}

/-! ## Parts of a step -/

namespace Step

theorem perform_bind_ok {β : Type} {step : Step σ α} {next : α → Step σ β}
    {d d' : Desk σ} {value : α} (h : step.perform d = (.ok value, d')) :
    (step >>= next).perform d = (next value).perform d' := by
  rw [perform_bind, h]

theorem perform_bind_error {β : Type} {step : Step σ α} {next : α → Step σ β}
    {d d' : Desk σ} {error : Error} (h : step.perform d = (.error error, d')) :
    (step >>= next).perform d = (.error error, d') := by
  rw [perform_bind, h]

theorem exists_of_perform_bind_ok {β : Type} {step : Step σ α}
    {next : α → Step σ β} {d d' : Desk σ} {value : β}
    (h : (step >>= next).perform d = (.ok value, d')) :
    ∃ a d₁, step.perform d = (.ok a, d₁) ∧
      (next a).perform d₁ = (.ok value, d') := by
  rw [perform_bind] at h
  rcases hstep : step.perform d with ⟨result, d₁⟩
  cases result with
  | error error => simp [hstep] at h
  | ok a => exact ⟨a, d₁, rfl, by simpa [hstep] using h⟩

theorem perform_bind_error_cases {β : Type} {step : Step σ α}
    {next : α → Step σ β} {d d' : Desk σ} {error : Error}
    (h : (step >>= next).perform d = (.error error, d')) :
    step.perform d = (.error error, d') ∨
      ∃ a d₁, step.perform d = (.ok a, d₁) ∧
        (next a).perform d₁ = (.error error, d') := by
  rw [perform_bind] at h
  rcases hstep : step.perform d with ⟨result, d₁⟩
  cases result with
  | error error' => exact .inl (by simpa [hstep] using h)
  | ok a => exact .inr ⟨a, d₁, rfl, by simpa [hstep] using h⟩

@[simp] theorem perform_log (event : Log.Event) (d : Desk σ) :
    (log event).perform d =
      (.ok (), { d with events := d.events ++ [event] }) := rfl

theorem repository_ask {request : Request}
    {answer : σ → Except ServiceError α × σ} {d d' : Desk σ}
    {result : Except Error α}
    (h : (ask request answer).perform d = (result, d')) :
    d'.repository = d.repository := by
  rw [perform_ask, Prod.mk.injEq] at h
  rw [← h.2]

theorem answered_of_ask {request : Request}
    {answer : σ → Except ServiceError α × σ} {d d' : Desk σ} {value : α}
    (h : (ask request answer).perform d = (.ok value, d')) :
    (answer d.service).1 = .ok value := by
  rw [perform_ask, Prod.mk.injEq] at h
  cases hanswer : (answer d.service).1 with
  | ok value' =>
      rw [hanswer] at h
      exact congrArg Except.ok (Except.ok.inj h.1)
  | error error =>
      rw [hanswer] at h
      cases h.1

theorem shelf_update {report : Report} {id : RowId} {d : Desk σ}
    (hid : report.id = some id) (hstores : d.repository.shelf.Stores report) :
    ∃ d', (update report).perform d = (.ok (), d') ∧
      d'.repository.shelf = d.repository.shelf.put id report := by
  obtain ⟨r', hupdate, hshelf⟩ := Repository.shelf_update hid hstores
  exact ⟨{ d with repository := r' }, by rw [perform_update, hupdate], hshelf⟩

theorem perform_change_of_eq {f : Repository → Except Error α × Repository}
    {d : Desk σ} {result : Except Error α} {r : Repository}
    (h : f d.repository = (result, r)) :
    (change f).perform d = (result, { d with repository := r }) := by
  rw [perform_change, h]

theorem shelf_exchange {β : Type} {P : Shelf → Prop} {request : Request}
    {answer : σ → Except ServiceError α × σ} {revise : α → Report}
    {next : α → Step σ β} {d : Desk σ} {id : RowId}
    (hid : ∀ value, (revise value).id = some id)
    (hstores : ∀ value, d.repository.shelf.Stores (revise value))
    (hfail : P d.repository.shelf)
    (hok : ∀ value d', (answer d.service).1 = .ok value →
      d'.repository.shelf = d.repository.shelf.put id (revise value) →
      P ((next value).perform d').2.repository.shelf) :
    P ((ask request answer >>= fun value => update (revise value) >>= fun _ =>
      next value).perform d).2.repository.shelf := by
  rcases hask : (ask request answer).perform d with ⟨result, d'⟩
  have hkept := congrArg Repository.shelf (repository_ask hask)
  cases result with
  | error error =>
      rw [perform_bind_error hask, hkept]
      exact hfail
  | ok value =>
      obtain ⟨d'', hupdate, hshelf⟩ := shelf_update (d := d') (hid value) (by
        rw [hkept]
        exact hstores value)
      rw [perform_bind_ok hask, perform_bind_ok hupdate]
      rw [hkept] at hshelf
      exact hok value d'' (answered_of_ask hask) hshelf

end Step

theorem Shelf.Stores.keeps {s : Shelf} {r r' : Report} (h : s.Stores r)
    (hkeep : r.Keeps r') :
    s.Stores r' := by
  obtain ⟨id, hid, htable, hsome⟩ := h
  exact ⟨id, hkeep.id.trans hid, hkeep.table.trans htable, hsome⟩

theorem Shelf.Filed.put_keeps {s : Shelf} {id : RowId} {c c' : Report}
    (h : s.Filed)
    (hslot : s.slot id = some c) (hkeep : c.Keeps c') : (s.put id c').Filed :=
  h.put (hkeep.id.trans (h.id hslot)) (hkeep.table.trans (h.table hslot))
    (h.le_last hslot)

theorem Repository.withCode_eq (r : Repository) (column code : String) :
    r.withCode column code = r.all.filter fun c => c.text column == code := by
  unfold withCode all Store.withCode
  rw [List.filter_map]
  rfl

theorem Repository.mem_withCode {r : Repository} {column code : String}
    {c : Report} :
    c ∈ r.withCode column code ↔
      (∃ id, r.shelf.slot id = some c) ∧ c.text column = code := by
  rw [withCode_eq, List.mem_filter, mem_all, beq_iff_eq]

theorem Repository.mem_versions {r : Repository} (hfiled : r.shelf.Filed)
    {senderId : String} {id : RowId} :
    id ∈ (r.versions senderId).filterMap Report.id ↔
      ∃ other, r.shelf.slot id = some other ∧ other.senderId = senderId := by
  simp only [versions, List.mem_filterMap, mem_withCode]
  constructor
  · rintro ⟨other, ⟨⟨id', hslot⟩, hsender⟩, hid⟩
    rw [hfiled.id hslot, Option.some.injEq] at hid
    exact ⟨other, hid ▸ hslot, hsender⟩
  · rintro ⟨other, hslot, hsender⟩
    exact ⟨other, ⟨⟨id, hslot⟩, hsender⟩, hfiled.id hslot⟩

/-! ## Sending -/

theorem keeps_withReceipt (r : Report) (receipt : Receipt) :
    r.Keeps (withReceipt r receipt) :=
  (((keeps_setText r _ (by decide)).trans (keeps_setText _ _ (by decide))).trans
    (keeps_setText _ _ (by decide))).trans (keeps_setStatus _ _)

@[simp] theorem status_withReceipt (r : Report) (receipt : Receipt) :
    (withReceipt r receipt).status = receipt.status := by
  simp [withReceipt]

@[simp] theorem link_withReceipt (r : Report) (receipt : Receipt) :
    (withReceipt r receipt).text Columns.aggregatorId =
      r.text Columns.aggregatorId := by
  rw [withReceipt, text_setStatus_of_ne _ _ (by decide) (by decide),
    text_setText_of_ne _ _ (by decide), text_setText_of_ne _ _ (by decide),
    text_setText_of_ne _ _ (by decide)]

def Shelf.aggregatorFor (s : Shelf) (reports : List Report) (first : Report) :
    Report :=
  (Aggregator.forReports s.schema first reports).withId (s.last + 1)

def adopted (status : Status) (g : RowId) (r : Report) : Report :=
  (r.setStatus status).setAggregatorId (some g.text)

theorem keeps_adopted (status : Status) (g : RowId) (c : Report) :
    c.Keeps (adopted status g c) :=
  (keeps_setStatus c status).trans (keeps_setAggregatorId _ _)

def Shelf.adopt (s : Shelf) (reports : List Report) (a : Report)
    (stale : List RowId) : Shelf :=
  ((s.count.put (s.last + 1) a).write
    (reports.map (adopted a.status (s.last + 1)))).dropAll stale

def Repository.withNewAggregator (r : Repository) (reports : List Report)
    (first : Report) : Repository :=
  (r.insert (Aggregator.forReports r.schema first reports)).2.2

theorem Repository.shelf_withNewAggregator (r : Repository)
    (reports : List Report)
    (first : Report) : (r.withNewAggregator reports first).shelf =
      r.shelf.count.put (r.shelf.last + 1)
        (r.shelf.aggregatorFor reports first) := by
  have hfresh : (Aggregator.forReports r.schema first reports).id = none := rfl
  exact (Repository.shelf_insert r hfresh).2.trans (if_pos rfl)

inductive Sends (s : Shelf) (reports : List Report)
    (answered : Receipt → Prop) :
    Shelf → Prop where
  | refused : Sends s reports answered s
  | alone {c : Report} {id : RowId} {receipt : Receipt}
      (hreports : reports = [c])
      (hid : c.id = some id) (hanswer : answered receipt) :
      Sends s reports answered (s.put id (withReceipt c receipt))
  | abandoned {first second : Report} {rest : List Report}
      (hreports : reports = first :: second :: rest) :
      Sends s reports answered
        (s.count.put (s.last + 1) (s.aggregatorFor reports first))
  | together {first second : Report} {rest : List Report} {receipt : Receipt}
      {stale : List RowId} (hreports : reports = first :: second :: rest)
      (hanswer : answered receipt)
      (hstale : ∀ id, id ∈ stale ↔ id ≠ s.last + 1 ∧
        ∃ r, s.slot id = some r ∧
          r.senderId = (s.aggregatorFor reports first).senderId) :
      Sends s reports answered
        (((s.count.put (s.last + 1)
            (withReceipt (s.aggregatorFor reports first) receipt)).write
          (reports.map (adopted receipt.status (s.last + 1)))).dropAll stale)

variable {service : Service σ} {batch : Batch} {d : Desk σ}

theorem aggregatorFor_text (s : Shelf) (reports : List Report) (first : Report)
    (column : String) : (s.aggregatorFor reports first).text column =
      (Aggregator.forReports s.schema first reports).text column := rfl

theorem aggregatorFor_cells (s : Shelf) (reports : List Report)
    (first : Report) :
    let g := s.aggregatorFor reports first
    g.text Columns.kind = Kind.aggregation.text ∧
      g.text Columns.dataCollection = first.dataCollection ∧
      g.text Columns.senderId =
        first.dataCollection ++ Aggregator.senderSuffix ∧
      g.text Columns.version =
        Version.ofNumber (Aggregator.highestVersion reports) ∧
      g.text Columns.aggregatorId = "" := by
  have hnew : (Report.new s.schema).text Columns.aggregatorId = "" := rfl
  rw [← hnew]
  refine ⟨?_, ?_, ?_, ?_, ?_⟩
  all_goals
    simp (disch := decide) only [aggregatorFor_text, Aggregator.forReports,
      text_setStatus_of_ne, text_setText_of_ne, setKind, text_setText_self]

theorem isAggregator_aggregatorFor (s : Shelf) (reports : List Report)
    (first : Report) :
    (s.aggregatorFor reports first).isAggregator = true := by
  obtain ⟨hkind, -⟩ := aggregatorFor_cells s reports first
  rw [isAggregator, kind, hkind, Kind.ofText_text]
  rfl

private theorem mem_staleVersions {r : Repository} (hfiled : r.shelf.Filed)
    {report : Report} {id : RowId} :
    id ∈ staleVersions r report ↔ report.id ≠ some id ∧
      ∃ other, r.shelf.slot id = some other ∧
        other.senderId = report.senderId := by
  rw [staleVersions, List.mem_filter, Repository.mem_versions hfiled,
    bne_iff_ne, and_comm]

theorem Aggregator.create_cons (r : Repository) (first : Report)
    (rest : List Report) :
    create r (first :: rest) =
      match (first :: rest).find? fun c =>
        c.dataCollection != first.dataCollection with
      | some other =>
          .error
            (.mixedDataCollections first.dataCollection other.dataCollection)
      | none => .ok (r.shelf.aggregatorFor (first :: rest) first,
          r.withNewAggregator (first :: rest) first) := by
  have hfresh : (forReports r.schema first (first :: rest)).id = none := rfl
  unfold create
  simp only
  cases (first :: rest).find? fun c =>
    c.dataCollection != first.dataCollection with
  | some other => rfl
  | none =>
      simp only [(Repository.shelf_insert r hfresh).1]
      rfl

theorem Aggregator.create_of_one_collection (r : Repository) {first : Report}
    {rest : List Report}
    (h : ∀ c ∈ first :: rest, c.dataCollection = first.dataCollection) :
    create r (first :: rest) = .ok (r.shelf.aggregatorFor (first :: rest) first,
      r.withNewAggregator (first :: rest) first) := by
  have hnone :
      ((first :: rest).find? fun c =>
        c.dataCollection != first.dataCollection) =
      none := by
    rw [List.find?_eq_none]
    intro c hc
    simp [h c hc]
  rw [create_cons, hnone]

theorem perform_sendTarget {reports rest : List Report} {first second : Report}
    (hreports : reports = first :: second :: rest) (d : Desk σ) :
    (sendTarget reports).perform d =
      match reports.find? fun c => c.dataCollection != first.dataCollection with
      | some other =>
          (.error
            (.mixedDataCollections first.dataCollection other.dataCollection),
            d)
      | none => (.ok (d.repository.shelf.aggregatorFor reports first),
          { d with repository :=
              d.repository.withNewAggregator reports first }) := by
  subst hreports
  change (Step.repository >>= fun r => _).perform d = _
  rw [Step.perform_bind_ok (Step.perform_repository d), Aggregator.create_cons]
  cases (first :: second :: rest).find? fun c =>
    c.dataCollection != first.dataCollection with
  | some other => rfl
  | none => rfl

private theorem FanOut.adopt_eq {a : Report} {g : RowId} (hid : a.id = some g)
    (reports : List Report) :
    FanOut.adopt a reports = .ok ⟨reports.map (adopted a.status g), []⟩ := by
  rw [FanOut.adopt, hid]
  rfl

private theorem commit_together {r r' : Repository} {a : Report}
    {reports : List Report} (hfiled : r.shelf.Filed)
    (hid : a.id = some (r.shelf.last + 1))
    (htable : a.row.table = r.shelf.schema.sheetName)
    (hstored : ∀ c ∈ reports, ∃ id, r.shelf.slot id = some c)
    (hshelf : r'.shelf = r.shelf.count.put (r.shelf.last + 1) a) :
    (∀ id, id ∈ staleVersions r' a ↔ id ≠ r.shelf.last + 1 ∧
      ∃ c, r.shelf.slot id = some c ∧ c.senderId = a.senderId) ∧
    ∃ r'',
      (FanOut.withDeletions
        ⟨reports.map (adopted a.status (r.shelf.last + 1)), []⟩
        (staleVersions r' a)).commit r' =
          (.ok (reports.map (adopted a.status (r.shelf.last + 1))), r'') ∧
      r''.shelf = r.shelf.adopt reports a (staleVersions r' a) := by
  have hnext {id : RowId} {c : Report} (hslot : r.shelf.slot id = some c) :
      id ≠ r.shelf.last + 1 := by
    rintro rfl
    rw [hfiled.slot_next] at hslot
    cases hslot
  have hfiled' : r'.shelf.Filed := by
    rw [hshelf]
    exact hfiled.count.put hid htable (Nat.le_refl _)
  have hslot' {id : RowId} (hne : id ≠ r.shelf.last + 1) : r'.shelf.slot id =
      r.shelf.slot id := by
    rw [hshelf, Shelf.slot_put_of_ne _ _ hne]
    rfl
  have hstores : ∀ c' ∈ reports.map (adopted a.status (r.shelf.last + 1)),
      r'.shelf.Stores c' := by
    intro c' hc'
    obtain ⟨c, hc, rfl⟩ := List.mem_map.mp hc'
    obtain ⟨id, hslot⟩ := hstored c hc
    exact (hfiled'.stores ((hslot' (hnext hslot)).trans hslot)).keeps
      (keeps_adopted _ _ c)
  refine ⟨fun id => ?_, ?_⟩
  · rw [mem_staleVersions hfiled', hid]
    constructor
    · rintro ⟨hne, other, hslot, hsender⟩
      have hne' : id ≠ r.shelf.last + 1 := fun heq => hne (heq ▸ rfl)
      exact ⟨hne', other, hslot' hne' ▸ hslot, hsender⟩
    · rintro ⟨hne, other, hslot, hsender⟩
      exact ⟨fun heq => hne (Option.some.inj heq).symm, other,
        (hslot' hne).trans hslot, hsender⟩
  · let plan : FanOut :=
      ⟨reports.map (adopted a.status (r.shelf.last + 1)), staleVersions r' a⟩
    have hplan : ∀ report ∈ plan.updates, r'.shelf.Stores report := hstores
    obtain ⟨r'', hcommit, hshelf''⟩ := FanOut.shelf_commit hplan
    exact ⟨r'', hcommit, by rw [hshelf'', hshelf]; rfl⟩

theorem send_alone {β : Type} {c : Report} {id : RowId}
    {next : Receipt → Step σ β} (hfiled : d.repository.shelf.Filed)
    (hslot : d.repository.shelf.slot id = some c)
    (hnext : ∀ receipt d', ((next receipt).perform d').2 = d') :
    Sends d.repository.shelf [c]
      (fun receipt => ∃ target state,
        (service.send target state).1 = .ok receipt)
      ((Step.ask (.send c.senderId) (service.send c) >>= fun receipt =>
        Step.update (withReceipt c receipt) >>= fun _ =>
          next receipt).perform d).2.repository.shelf := by
  refine Step.shelf_exchange
    (fun receipt => (keeps_withReceipt c receipt).id.trans (hfiled.id hslot))
    (fun receipt => (hfiled.stores hslot).keeps (keeps_withReceipt c receipt))
      .refused
    fun receipt d' hanswer hshelf => ?_
  rw [hnext, hshelf]
  exact .alone rfl (hfiled.id hslot) ⟨c, d.service, hanswer⟩

/-- A send of several reports that the service takes, step by step. -/
theorem perform_sendBatch_together {first second : Report} {rest : List Report}
    {receipt : Receipt} (hfiled : d.repository.shelf.Filed)
    (hreports : batch.reports = first :: second :: rest)
    (hstored : ∀ c ∈ batch.reports, ∃ i, d.repository.shelf.slot i = some c)
    (hready : ∀ c ∈ batch.reports, c.status.canBeSent = true)
    (hcollection : ∀ c ∈ batch.reports, c.dataCollection = first.dataCollection)
    (hanswer :
      (service.send (d.repository.shelf.aggregatorFor batch.reports first)
        d.service).1 = .ok receipt) :
    let unsent := d.repository.shelf.aggregatorFor batch.reports first
    let a := withReceipt unsent receipt
    ∃ r stale,
      (sendBatch service batch).perform d =
        (.ok ⟨a, receipt,
            batch.reports.map
              (adopted receipt.status (d.repository.shelf.last + 1))⟩,
          ⟨r, (service.send unsent d.service).2,
            d.requests ++ [.send unsent.senderId],
            d.events⟩) ∧
      (∀ i, i ∈ stale ↔ i ≠ d.repository.shelf.last + 1 ∧
        ∃ c, d.repository.shelf.slot i = some c ∧ c.senderId = a.senderId) ∧
      r.shelf = d.repository.shelf.adopt batch.reports a stale ∧
      d.repository.SameElsewhere r := by
  intro unsent a
  let r₁ := d.repository.withNewAggregator batch.reports first
  let d₁ : Desk σ := { d with repository := r₁ }
  have hunblocked : batch.reports.find? (fun c => !c.status.canBeSent) =
      none := by
    rw [List.find?_eq_none]
    exact fun c hc => by simp [hready c hc]
  have hunmixed :
      batch.reports.find? (fun c => c.dataCollection != first.dataCollection) =
      none := by
    rw [List.find?_eq_none]
    exact fun c hc => by simp [hcollection c hc]
  have htarget : (sendTarget batch.reports).perform d = (.ok unsent, d₁) := by
    rw [perform_sendTarget hreports, hunmixed]
  have hask : (Step.ask (.send unsent.senderId) (service.send unsent)).perform
      d₁ =
      (.ok receipt, ⟨r₁, (service.send unsent d.service).2,
        d.requests ++ [.send unsent.senderId], d.events⟩) := by
    rw [Step.perform_ask, hanswer]
    rfl
  have hkeep : unsent.Keeps a := keeps_withReceipt unsent receipt
  have hshelf₁ := d.repository.shelf_withNewAggregator batch.reports first
  obtain ⟨r₂, hupdate, hshelf₂⟩ := Repository.shelf_update hkeep.id
    (show r₁.shelf.Stores a from hshelf₁ ▸ ⟨_, hkeep.id, hkeep.table, by simp⟩)
  rw [hshelf₁, Shelf.put_put] at hshelf₂
  obtain ⟨hstale, r₃, hcommit, hshelf₃⟩ :=
    commit_together hfiled hkeep.id hkeep.table hstored hshelf₂
  refine ⟨r₃, staleVersions r₂ a, ?_, hstale, hshelf₃, ?_⟩
  · let d₂ : Desk σ := ⟨r₁, (service.send unsent d.service).2,
      d.requests ++ [.send unsent.senderId], d.events⟩
    let d₃ : Desk σ := { d₂ with repository := r₂ }
    have hwrite : (Step.update a).perform d₂ = (.ok (), d₃) := by
      rw [Step.perform_update, hupdate]
    have haggregator : a.isAggregator = true :=
      hkeep.isAggregator.trans (isAggregator_aggregatorFor _ _ _)
    have hchange := Step.perform_change_of_eq (d := d₃) hcommit
    unfold sendBatch
    rw [hunblocked]
    simp only
    rw [Step.perform_bind_ok htarget, Step.perform_bind_ok hask,
      Step.perform_bind_ok hwrite, if_pos haggregator,
      Step.perform_bind_ok (Step.perform_repository d₃),
      FanOut.adopt_eq hkeep.id]
    simp only
    rw [Step.perform_bind_ok hchange, Step.perform_pure, status_withReceipt]
  · have hinsert : d.repository.SameElsewhere r₁ := .insert rfl rfl
    have hschema : r₁.table = d.repository.table := by
      rw [Repository.table, hinsert.schema]; rfl
    have hreplace : r₁.SameElsewhere r₂ :=
      .update (hkeep.table.trans hschema.symm) hupdate
    refine (hinsert.trans hreplace).trans (.commit (fun c' hc' => ?_) hcommit)
    obtain ⟨c, hc, rfl⟩ := List.mem_map.mp hc'
    obtain ⟨i, hslot⟩ := hstored c hc
    rw [(keeps_adopted _ _ c).table, hfiled.table hslot, Repository.table,
      (hinsert.trans hreplace).schema]
    rfl

theorem sendBatch_sends_together {first second : Report} {rest : List Report}
    (hfiled : d.repository.shelf.Filed)
    (hstored : ∀ c ∈ batch.reports, ∃ id, d.repository.shelf.slot id = some c)
    (hunblocked : batch.reports.find? (fun c => !c.status.canBeSent) = none)
    (hreports : batch.reports = first :: second :: rest) :
    Sends d.repository.shelf batch.reports
      (fun receipt => ∃ target state,
        (service.send target state).1 = .ok receipt)
      ((sendBatch service batch).perform d).2.repository.shelf := by
  have htarget := perform_sendTarget hreports d
  cases hunmixed : batch.reports.find? fun c =>
    c.dataCollection != first.dataCollection with
  | some other =>
      rw [hunmixed] at htarget
      unfold sendBatch
      rw [hunblocked]
      simp only
      rw [Step.perform_bind_error htarget]
      exact .refused
  | none =>
      rw [hunmixed] at htarget
      let unsent := d.repository.shelf.aggregatorFor batch.reports first
      cases hanswer : (service.send unsent d.service).1 with
      | error error =>
          unfold sendBatch
          rw [hunblocked]
          simp only
          rw [Step.perform_bind_ok htarget, Step.perform_bind,
            Step.perform_ask, hanswer]
          change Sends _ _ _
            (d.repository.withNewAggregator batch.reports first).shelf
          rw [d.repository.shelf_withNewAggregator]
          exact .abandoned hreports
      | ok receipt =>
          obtain ⟨r, stale, hperform, hstale, hshelf, -⟩ :=
            perform_sendBatch_together hfiled hreports hstored
            (fun c hc => by simpa using List.find?_eq_none.mp hunblocked c hc)
            (fun c hc => by simpa using List.find?_eq_none.mp hunmixed c hc)
              hanswer
          rw [hperform]
          change Sends _ _ _ r.shelf
          rw [hshelf, Shelf.adopt, status_withReceipt]
          rw [(keeps_withReceipt _ receipt).senderId] at hstale
          exact .together hreports ⟨_, d.service, hanswer⟩ hstale

theorem sendBatch_sends (hfiled : d.repository.shelf.Filed)
    (hstored : ∀ c ∈ batch.reports, ∃ id, d.repository.shelf.slot id = some c)
    (hvisible : ∀ c ∈ batch.reports, c.isVisible = true) :
    Sends d.repository.shelf batch.reports
      (fun receipt => ∃ target state,
        (service.send target state).1 = .ok receipt)
      ((sendBatch service batch).perform d).2.repository.shelf := by
  cases hblocked : batch.reports.find? fun c => !c.status.canBeSent with
  | some blocked =>
      unfold sendBatch
      rw [hblocked]
      exact .refused
  | none =>
      match hreports : batch.reports with
      | [] =>
          unfold sendBatch
          rw [hblocked, hreports]
          exact .refused
      | [first] =>
          obtain ⟨id, hslot⟩ := hstored first (by simp [hreports])
          unfold sendBatch
          rw [hblocked, hreports]
          simp only
          rw [sendTarget, Step.perform_bind, Step.perform_pure]
          refine send_alone hfiled hslot fun receipt d' => ?_
          have haggregator : (withReceipt first receipt).isAggregator =
              false := by
            rw [(keeps_withReceipt first receipt).isAggregator]
            exact isVisible_iff.mp (hvisible first (by simp [hreports]))
          rw [haggregator]
          rfl
      | first :: second :: rest =>
          rw [← hreports]
          exact sendBatch_sends_together hfiled hstored hblocked hreports

theorem Sends.filed {s s' : Shelf} {reports : List Report}
    {answered : Receipt → Prop} (hfiled : s.Filed)
    (hstored : ∀ c ∈ reports, ∃ id, s.slot id = some c)
    (h : Sends s reports answered s') : s'.Filed ∧ s.last ≤ s'.last := by
  cases h with
  | refused => exact ⟨hfiled, Nat.le_refl _⟩
  | @alone c id receipt hreports hid =>
      obtain ⟨id', hslot⟩ := hstored c (by simp [hreports])
      obtain rfl : id' = id :=
        Option.some.inj ((hfiled.id hslot).symm.trans hid)
      exact ⟨hfiled.put_keeps hslot (keeps_withReceipt c receipt),
        Nat.le_refl _⟩
  | abandoned => exact ⟨hfiled.count.put rfl rfl (Nat.le_refl _), Nat.le_succ _⟩
  | @together first second rest receipt stale =>
      have hkeep := keeps_withReceipt (s.aggregatorFor reports first) receipt
      refine ⟨((hfiled.count.put hkeep.id hkeep.table (Nat.le_refl _)).write
        fun c' hc' => ?_).dropAll stale, ?_⟩
      · obtain ⟨c, hc, rfl⟩ := List.mem_map.mp hc'
        obtain ⟨id, hslot⟩ := hstored c hc
        exact ((hfiled.count.stores hslot).keeps (keeps_adopted _ _ c)).put
      · change s.last ≤ (Shelf.write _ _).last
        rw [Shelf.last_write]
        exact Nat.le_succ _

end ReportDesk.Report
