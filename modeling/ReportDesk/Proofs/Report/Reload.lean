import ReportDesk.Proofs.Report.Delivery

/-!
# The batch after it was sent

Once a batch was sent through an aggregator, the collection is loaded as that
aggregator and the reports that were sent, in their order, as long as the
service has not finalized them.
-/

namespace ReportDesk.Report

variable {σ : Type} {service : Service σ} {batch : Batch} {d d' : Desk σ}
  {sent : Sent}

private theorem answered_of_sendBatch {first second : Report}
    {rest : List Report} (hreports : batch.reports = first :: second :: rest)
    (hsend : (sendBatch service batch).perform d = (.ok sent, d')) :
    (∀ c ∈ batch.reports, c.status.canBeSent = true) ∧
      (∀ c ∈ batch.reports, c.dataCollection = first.dataCollection) ∧
      ∃ receipt,
        (service.send (d.repository.shelf.aggregatorFor batch.reports first)
          d.service).1 = .ok receipt := by
  unfold sendBatch at hsend
  split at hsend
  · simp at hsend
  next hunblocked =>
    rw [List.find?_eq_none] at hunblocked
    obtain ⟨target, d₁, htarget, hnext⟩ := Step.exists_of_perform_bind_ok hsend
    obtain ⟨receipt, d₂, hask, -⟩ := Step.exists_of_perform_bind_ok hnext
    rw [perform_sendTarget hreports] at htarget
    split at htarget
    · cases htarget
    next hunmixed =>
      rw [List.find?_eq_none] at hunmixed
      cases htarget
      have hanswer := Step.answered_of_ask hask
      refine ⟨fun c hc => ?_, fun c hc => ?_, receipt, hanswer⟩
      · simpa using hunblocked c hc
      · simpa using hunmixed c hc

private theorem eq_of_listed {l l' : List Report}
    (hl : l.Pairwise fun a b => ∀ i j, a.id = some i → b.id = some j → i < j)
    (hl' : l'.Pairwise fun a b => ∀ i j, a.id = some i → b.id = some j → i < j)
    (hid : ∀ c ∈ l, ∃ i, c.id = some i) (hmem : ∀ c, c ∈ l ↔ c ∈ l') :
    l = l' := by
  have hnodup {k : List Report} (hid : ∀ c ∈ k, ∃ i, c.id = some i)
      (hk : k.Pairwise fun a b => ∀ i j, a.id = some i → b.id = some j →
        i < j) : k.Nodup := by
    refine hk.imp_of_mem fun {a b} ha _ hlt heq => ?_
    obtain ⟨i, hi⟩ := hid a ha
    exact Nat.lt_irrefl i (hlt i i hi (heq ▸ hi))
  have hperm : l.Perm l' := (List.perm_ext_iff_of_nodup (hnodup hid hl)
    (hnodup (fun c hc => hid c ((hmem c).mpr hc)) hl')).mpr hmem
  refine List.Perm.eq_of_pairwise (fun a b ha hb hab hba => ?_) hl hl' hperm
  obtain ⟨i, hi⟩ := hid a ha
  obtain ⟨j, hj⟩ := hid b ((hmem b).mpr hb)
  exact absurd (hab i j hi hj) (Nat.lt_asymm (hba j i hj hi))

/--
The sender id of a collection's aggregator is kept for its aggregators, and no
link names an id that is still free.
-/
structure Repository.Orderly (r : Repository) (dc : String) : Prop where
  aggregators : ∀ c ∈ r.all, c.isAggregator = true → c.dataCollection = dc →
    c.senderId = dc ++ "_AGGR"
  visible : ∀ c ∈ r.all, c.isVisible = true → c.senderId ≠ dc ++ "_AGGR"
  links : ∀ c ∈ r.all, ∀ g, c.aggregatorRowId = some g → g ≤ r.store.lastId

namespace Batch

structure Adopts (r r' : Repository) (dc : String) (g : RowId) (a : Report) :
    Prop where
  before : r.shelf.Filed
  after : r'.shelf.Filed
  next : g = r.store.lastId + 1
  slot : ∀ i, r'.shelf.slot i = if i = g then some a
    else (r.shelf.slot i).bind (joined (load r dc).reports a g)
  collector : a.Collector
  collection : a.dataCollection = dc

namespace Adopts

variable {r r' : Repository} {dc : String} {g i : RowId} {a c c' : Report}

theorem senderId (h : Adopts r r' dc g a) : a.senderId = dc ++ "_AGGR" := by
  rw [h.collector.sender, h.collection]
  rfl

theorem slot_self (h : Adopts r r' dc g a) : r'.shelf.slot g = some a := by
  rw [h.slot, if_pos rfl]

theorem exists_of_slot (h : Adopts r r' dc g a) (hi : i ≠ g)
    (hslot : r'.shelf.slot i = some c') :
    ∃ c, r.shelf.slot i = some c ∧ c.senderId ≠ a.senderId ∧
      (c ∈ (load r dc).reports ∧ c' = adopted a.status g c ∨
        c ∉ (load r dc).reports ∧ c' = c) := by
  rw [h.slot, if_neg hi] at hslot
  obtain ⟨c, hc, hjoined⟩ := Option.bind_eq_some_iff.mp hslot
  exact ⟨c, hc, of_joined hjoined⟩

theorem leads (h : Adopts r r' dc g a) (horderly : r.Orderly dc) :
    Leads r'.shelf.slot dc g a := by
  refine ⟨h.slot_self, h.collector.aggregator, h.collection,
    fun {i c'} hslot hc' hdc => ?_⟩
  by_contra hlt
  -- another aggregator of the collection had its sender id, and is gone
  obtain ⟨c, hc, hne, hcase⟩ :=
    h.exists_of_slot (fun heq => hlt (Nat.le_of_eq heq.symm)) hslot
  have hkeep : c.Keeps c' := by
    rcases hcase with ⟨-, hadopted⟩ | ⟨-, hkept⟩
    · exact hadopted ▸ keeps_adopted a.status g c
    · exact hkept ▸ .refl c
  have hstored : c ∈ r.all := Repository.mem_all.mpr ⟨i, hc⟩
  apply hne
  rw [h.senderId]
  exact horderly.aggregators c hstored (hkeep.isAggregator ▸ hc')
    (hkeep.dataCollection ▸ hdc)

private theorem slot_of_mem (h : Adopts r r' dc g a) (horderly : r.Orderly dc)
    (hc : c ∈ (load r dc).reports) :
    ∃ i, r'.shelf.slot i = some (adopted a.status g c) := by
  obtain ⟨⟨i, hslot⟩, -, hvisible, -, -⟩ := candidate_of_mem hc
  have hi : i ≠ g := by
    rw [h.next]
    exact Nat.ne_of_lt (Nat.lt_succ_of_le (h.before.le_last hslot))
  have hne : c.senderId ≠ a.senderId := by
    rw [h.senderId]
    exact horderly.visible c (Repository.mem_all.mpr ⟨i, hslot⟩) hvisible
  refine ⟨i, ?_⟩
  rw [h.slot, if_neg hi, hslot, Option.bind_some, joined, if_neg hne, if_pos hc]

theorem mem_load (h : Adopts r r' dc g a) (horderly : r.Orderly dc)
    (hword : g < Numeral.word64) :
    c' ∈ (load r' dc).reports ↔
      c' ∈ (load r dc).reports.map (adopted a.status g) := by
  rw [mem_load_of_leads h.after (h.leads horderly) h.collector, List.mem_map]
  constructor
  · rintro ⟨⟨⟨i, hslot⟩, -, hvisible, -, -⟩, hlink⟩
    have hi : i ≠ g := by
      rintro rfl
      rw [h.slot_self, Option.some.injEq] at hslot
      exact h.collector.not_visible (hslot ▸ hvisible)
    obtain ⟨c, hc, -, ⟨hmem, hadopted⟩ | ⟨-, hkept⟩⟩ :=
      h.exists_of_slot hi hslot
    · exact ⟨c, hmem, hadopted.symm⟩
    · have hle := horderly.links c (Repository.mem_all.mpr ⟨i, hc⟩) g
        (hkept ▸ hlink)
      rw [h.next] at hle
      exact absurd hle (Nat.not_succ_le_self _)
  · rintro ⟨c, hc, rfl⟩
    have hkeep := keeps_adopted a.status g c
    obtain ⟨-, hdc, hvisible, hamendment, -⟩ := candidate_of_mem hc
    refine ⟨⟨h.slot_of_mem horderly hc, ?_, ?_, ?_, ?_⟩, ?_⟩
    · rw [hkeep.dataCollection, hdc]
    · rw [hkeep.isVisible, hvisible]
    · rw [hkeep.isAmendment, hamendment]
    · rw [adopted, status_setAggregatorId, status_setStatus, h.collector.live]
    · exact aggregatorRowId_of_text (text_setAggregatorId_rowId _ _) hword

theorem load_eq (h : Adopts r r' dc g a) (horderly : r.Orderly dc)
    (hword : g < Numeral.word64) :
    load r' dc = ⟨some a, (load r dc).reports.map (adopted a.status g)⟩ := by
  have hleads := h.leads horderly
  have hreports : (load r' dc).reports =
      (load r dc).reports.map (adopted a.status g) := by
    refine eq_of_listed (listed_load h.after) ?_ (fun c hc => ?_) fun c =>
      h.mem_load horderly hword
    · rw [List.pairwise_map]
      simp only [(keeps_adopted _ _ _).id]
      exact listed_load h.before
    · obtain ⟨i, hslot⟩ := (candidate_of_mem hc).stored
      exact ⟨i, h.after.id hslot⟩
  rw [← hreports,
    load_of_aggregator (find?_of_leads h.after hleads h.collector)
      (h.after.id h.slot_self)]

end Adopts

/--
A batch of several reports that was sent is loaded again: its aggregator is the
report that was sent, and its reports are those of the outcome.
-/
theorem load_sendBatch {dc : String} (hfiled : d.repository.shelf.Filed)
    (hword : d.repository.store.lastId + 1 < Numeral.word64)
    (horderly : d.repository.Orderly dc)
    (hsize : 2 ≤ (load d.repository dc).size)
    (hsend : (sendBatch service (load d.repository dc)).perform d =
      (.ok sent, d'))
    (hlive : sent.receipt.status.isFinalized = false) :
    load d'.repository dc = ⟨some sent.target, sent.reports⟩ ∧
      sent.reports.map Report.id =
        (load d.repository dc).reports.map Report.id := by
  obtain ⟨first, second, rest, hreports⟩ :
      ∃ first second rest,
        (load d.repository dc).reports = first :: second :: rest := by
    match h : (load d.repository dc).reports with
    | [] => simp [size, h] at hsize
    | [_] => simp [size, h] at hsize
    | first :: second :: rest => exact ⟨first, second, rest, rfl⟩
  obtain ⟨hready, hcollection, receipt, hanswer⟩ :=
    answered_of_sendBatch hreports hsend
  obtain ⟨r, stale, hperform, hstale, hshelf, -⟩ :=
    perform_sendBatch_together hfiled hreports
    stored_of_mem_load hready hcollection hanswer
  have hafter : d'.repository.shelf.Filed := by
    have hsends : Sends d.repository.shelf (load d.repository dc).reports _
        ((sendBatch service (load d.repository dc)).perform
          d).2.repository.shelf :=
      sendBatch_sends hfiled stored_of_mem_load visible_of_mem_load
    rw [hsend] at hsends
    exact (hsends.filed hfiled stored_of_mem_load).1
  rw [hperform, Prod.mk.injEq, Except.ok.injEq] at hsend
  obtain ⟨rfl, rfl⟩ := hsend
  have hfirst : first ∈ (load d.repository dc).reports := by simp [hreports]
  obtain ⟨hcollector, hdc⟩ :=
    collector_aggregatorFor (s := d.repository.shelf) hfirst
    (candidate_of_mem hfirst).amendment
  have hkeep := keeps_withReceipt
    (d.repository.shelf.aggregatorFor (load d.repository dc).reports first)
    receipt
  have hadopts : Adopts d.repository r dc (d.repository.shelf.last + 1)
      (withReceipt _ receipt) :=
    { before := hfiled
      after := hafter
      next := rfl
      slot := by
        rw [hshelf]
        exact Shelf.slot_adopt hfiled
          (pairwise_load hfiled) stored_of_mem_load hstale
      collector := hcollector.keeps hkeep (link_withReceipt _ _)
        ((congrArg _ (status_withReceipt _ _)).trans hlive)
      collection := by
        rw [hkeep.dataCollection, hdc, (candidate_of_mem hfirst).collection] }
  refine ⟨?_, ?_⟩
  · rw [hadopts.load_eq horderly hword, status_withReceipt]
  · rw [List.map_map]
    exact List.map_congr_left fun c _ => (keeps_adopted _ _ c).id

private theorem orderly_twoAmendments : twoAmendments.Orderly "BSI" := by
  constructor
  all_goals decide +kernel

theorem load_sendBatch_twoAmendments :
    ∃ sent d', (sendBatch accepting (load twoAmendments "BSI")).perform
        (.start twoAmendments ()) = (.ok sent, d') ∧
      load d'.repository "BSI" = ⟨some sent.target, sent.reports⟩ ∧
      sent.reports.map Report.id = [some 1, some 2] := by
  rcases hsend : (sendBatch accepting (load twoAmendments "BSI")).perform
    (.start twoAmendments ()) with ⟨result, d'⟩
  have haccepted : (result.toOption.map fun sent => sent.receipt.status) =
      some .uploaded := by
    rw [show result = _ from (congrArg Prod.fst hsend).symm]
    decide +kernel
  cases result with
  | error error => cases haccepted
  | ok sent =>
      have hstatus : sent.receipt.status = .uploaded :=
        Option.some.inj haccepted
      have hids : (load twoAmendments "BSI").reports.map Report.id =
          [some 1, some 2] := by
        decide +kernel
      obtain ⟨hload, hsame⟩ := load_sendBatch (d := .start twoAmendments ())
        filed_twoAmendments (by decide +kernel) orderly_twoAmendments
        (by decide +kernel) hsend
        (by rw [hstatus]; rfl)
      exact ⟨sent, d', rfl, hload, hsame.trans hids⟩

end Batch

end ReportDesk.Report
