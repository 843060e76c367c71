import ReportDesk.Proofs.Report.Dissolution

/-!
# Reports refreshed through their aggregator

The status that the service answers goes to the aggregator and to the reports
that name it.  When it is a final one, these reports are free again, and the
rows under the aggregator's sender id are removed.
-/

namespace ReportDesk.Report

/-! ## What becomes of the slots -/

structure Freed (status : Status) (c c' : Report) : Prop where
  restated : Restated status [Columns.aggregatorId] c c'
  unlinked : c'.row.cell? Columns.aggregatorId = none

private theorem freed_detached (status : Status) (c : Report) :
    Freed status c (detached status c) where
  restated := (restated_setStatus status c).setAggregatorId none
  unlinked := Row.cell?_remove_self _ _

/--
What becomes of a slot when an aggregator with this sender id is finalized.
-/
inductive Dismissed (g : RowId) (senderId : String) (status : Status) :
    Option Report → Option Report → Prop where
  | empty : Dismissed g senderId status none none
  | removed {c : Report} (hsender : c.senderId = senderId) :
      Dismissed g senderId status (some c) none
  | freed {c c' : Report} (hsender : c.senderId ≠ senderId)
      (hlink : c.text Columns.aggregatorId = g.text)
      (hfreed : Freed status c c') :
      Dismissed g senderId status (some c) (some c')
  | kept {c : Report} (hsender : c.senderId ≠ senderId)
      (hlink : c.text Columns.aggregatorId ≠ g.text) :
      Dismissed g senderId status (some c) (some c)

private theorem dismissed_released (g : RowId) (a : Report) (status : Status)
    (slot : Option Report) :
    Dismissed g a.senderId status slot (slot.bind (released g a status)) := by
  cases slot with
  | none => exact .empty
  | some c =>
      rw [Option.bind_some, released]
      split
      next hsender => exact .removed hsender
      next hsender =>
        split
        next hlink => exact .freed hsender hlink (freed_detached status c)
        next hlink => exact .kept hsender hlink

theorem Freed.aggregatorId {status : Status} {c c' : Report}
    (h : Freed status c c') :
    c'.aggregatorId = none := by
  have hempty : c'.text Columns.aggregatorId = "" := by
    simp [text, Row.code, Row.read, h.unlinked]
  rw [Report.aggregatorId, hempty]
  decide

private theorem Dismissed.text_ne {g : RowId} {senderId : String}
    {status : Status} {slot : Option Report} {c' : Report}
    (h : Dismissed g senderId status slot (some c')) :
    c'.text Columns.aggregatorId ≠ g.text := by
  cases h with
  | freed hsender hlink hfreed =>
      exact text_ne_of_aggregatorId_none hfreed.aggregatorId g
  | kept hsender hlink => exact hlink

theorem Shelf.slot_follow {s : Shelf} {g : RowId} {a : Report} {status : Status}
    {followers : List Report} (hfiled : s.Filed) (hslot : s.slot g = some a)
    (hunlinked : a.text Columns.aggregatorId ≠ g.text)
    (hnodup : followers.Pairwise fun b c => b.id ≠ c.id)
    (hfollowers : ∀ c, c ∈ followers ↔
      (∃ id, (s.put g (a.setStatus status)).slot id = some c) ∧
        c.text Columns.aggregatorId = g.text) (i : RowId) :
    ((s.put g (a.setStatus status)).write
        (followers.map fun c => c.setStatus status)).slot i =
      (s.slot i).map fun c =>
        if i = g ∨ c.text Columns.aggregatorId = g.text then c.setStatus status
        else c := by
  have hstored : ∀ c ∈ followers, ∃ i, s.slot i = some c := by
    intro c hc
    obtain ⟨⟨i, hi⟩, htext⟩ := (hfollowers c).mp hc
    have hne : i ≠ g := by
      rintro rfl
      rw [slot_put_self, Option.some.injEq] at hi
      rw [← hi, text_setStatus_of_ne _ _ (by decide) (by decide)] at htext
      exact hunlinked htext
    exact ⟨i, by rw [← hi, slot_put_of_ne _ _ hne]⟩
  rw [slot_assign hfiled hslot hnodup hstored]
  cases hi : s.slot i with
  | none => rfl
  | some c =>
      have hmem : (i = g ∨ c ∈ followers) ↔
          (i = g ∨ c.text Columns.aggregatorId = g.text) := by
        by_cases hg : i = g
        · simp [hg]
        · have hput : (s.put g (a.setStatus status)).slot i = some c := by
            rw [slot_put_of_ne _ _ hg, hi]
          rw [hfollowers, and_iff_right ⟨i, hput⟩]
      simp only [Option.map_some, hmem]

/-! ## One refresh -/

/-- The repository before and after the status of an aggregator was spread. -/
structure Followed (g : RowId) (a : Report) (status : Status)
    (r r' : Repository) (a' : Report) : Prop where
  aggregator : Restated status [] a a'
  live : status.isFinalized = false → r'.get? g = some a' ∧
    ∀ i, Reassigned status
      (fun c => c = a ∨ c.text Columns.aggregatorId = g.text)
      (r.get? i) (r'.get? i)
  final : status.isFinalized = true →
    (∀ i, Dismissed g a.senderId status (r.get? i) (r'.get? i)) ∧
      ∀ i c, r'.get? i = some c → c.text Columns.aggregatorId ≠ g.text
  elsewhere : r.SameElsewhere r'
  last : r'.store.lastId = r.store.lastId

variable {σ : Type} {service : Service σ} {d : Desk σ} {report a : Report}
  {g : RowId} {status : Status}

theorem perform_refreshStatus_of_stored (hrow : report.aggregatorRowId = some g)
    (hget : d.repository.get? g = some a) :
    (refreshStatus service report).perform d =
      (refreshAggregator service a).perform d := by
  obtain ⟨text, hlink, -⟩ := Option.bind_eq_some_iff.mp hrow
  unfold refreshStatus
  rw [hlink]
  simp only
  rw [Step.perform_bind_ok (Step.perform_repository d), hrow,
    Option.bind_some, hget]

/--
A report that names a stored aggregator is refreshed by one request, about the
aggregator.  The answer reaches the aggregator and the rows with its id as
their aggregator id, and no others.
-/
theorem refreshStatus_followed (hfiled : d.repository.shelf.Filed)
    (hrow : report.aggregatorRowId = some g)
    (hget : d.repository.get? g = some a) (hunlinked : a.aggregatorId = none)
    (hanswer : (service.fetchStatus a d.service).1 = .ok status) :
    ∃ a' d', (refreshStatus service report).perform d = (.ok a', d') ∧
      d'.requests = d.requests ++ [.fetchStatus a.senderId] ∧
      d'.service = (service.fetchStatus a d.service).2 ∧ d'.events = d.events ∧
      Followed g a status d.repository d'.repository a' := by
  have hslot : d.repository.shelf.slot g = some a := hget
  obtain ⟨r, followers, versions, hperform, hnodup, hfollowers, hversions,
      hshelf, helsewhere⟩ :=
    perform_refreshAggregator_ok hfiled hslot hanswer
  refine ⟨a.setStatus status, _,
    (perform_refreshStatus_of_stored hrow hget).trans hperform, rfl, rfl, rfl,
    restated_setStatus status a, fun hlive => ?_, fun hfinal => ?_,
    helsewhere, ?_⟩
  · rw [if_neg (by simp [hlive])] at hshelf
    have hunnamed := text_ne_of_aggregatorId_none hunlinked g
    have hafter (i : RowId) : r.get? i = (d.repository.get? i).map fun c =>
        if i = g ∨ c.text Columns.aggregatorId = g.text then c.setStatus status
        else c := by
      change r.shelf.slot i = _
      rw [hshelf]
      exact Shelf.slot_follow hfiled hslot hunnamed hnodup hfollowers i
    refine ⟨by simp [hafter, hget], fun i => ?_⟩
    rw [hafter]
    refine reassigned_map fun c hi => or_congr_left ⟨?_, ?_⟩
    · rintro rfl
      exact Option.some.inj (hi.symm.trans hget)
    · rintro rfl
      exact Option.some.inj ((hfiled.id hi).symm.trans (hfiled.id hslot))
  · rw [if_pos hfinal] at hshelf
    have hdismissed (i : RowId) :
        Dismissed g a.senderId status (d.repository.get? i) (r.get? i) := by
      have hafter : r.get? i =
          (d.repository.get? i).bind (released g a status) := by
        change r.shelf.slot i = _
        rw [hshelf]
        exact Shelf.slot_release hfiled hslot hnodup hfollowers hversions i
      rw [hafter]
      exact dismissed_released g a status _
    refine ⟨hdismissed, fun i c hi => ?_⟩
    have hslot' := hdismissed i
    rw [hi] at hslot'
    exact hslot'.text_ne
  · change r.shelf.last = d.repository.shelf.last
    rw [hshelf]
    split <;> exact Shelf.last_write _ _

theorem refreshStatus_followed_sentTogether :
    ∃ a' d', (refreshStatus finalizing sentReport).perform sentTogether =
        (.ok a', d') ∧
      d'.requests = sentTogether.requests ++
        [.fetchStatus sentAggregator.senderId] ∧
      d'.service = () ∧ d'.events = sentTogether.events ∧
      Followed 3 sentAggregator .acceptedDwh sentTogether.repository
        d'.repository a' := by
  have hrow : sentReport.aggregatorRowId = some 3 := by decide +kernel
  have hget : sentTogether.repository.get? 3 = some sentAggregator := by
    decide +kernel
  have hunlinked : sentAggregator.aggregatorId = none := by decide +kernel
  exact refreshStatus_followed reachable_sentTogether.filed hrow hget
    hunlinked rfl

end ReportDesk.Report
