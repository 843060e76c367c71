import ReportDesk.Proofs.Report.Linkage
import ReportDesk.Proofs.Report.Sending

/-!
# Reports that are sent together

They follow a new aggregator, and the rows that were stored before under its
sender id are removed.
-/

namespace ReportDesk.Report

structure Shelf.Adoption (s : Shelf) (reports : List Report) (a : Report)
    (stale : List RowId) : Prop where
  collector : a.Collector
  nodup : reports.Pairwise fun b c => b.id ≠ c.id
  stored : ∀ c ∈ reports, ∃ i, s.slot i = some c
  collection : ∀ c ∈ reports, c.dataCollection = a.dataCollection
  visible : ∀ c ∈ reports, c.isVisible = true
  amendment : ∀ c ∈ reports, c.isAmendment = true
  complete : ∀ {i c}, s.slot i = some c → c.dataCollection = a.dataCollection →
    c.aggregatorId ≠ none → c ∈ reports
  companion : ∀ c ∈ reports, ∃ c' ∈ reports, c'.id ≠ c.id
  versions : ∀ id, id ∈ stale ↔ id ≠ s.last + 1 ∧
    ∃ r, s.slot id = some r ∧ r.senderId = a.senderId

variable {s : Shelf} {reports : List Report} {a c : Report} {stale : List RowId}
  {i : RowId}

/-! ## The slots afterwards -/

def joined (reports : List Report) (a : Report) (g : RowId) (c : Report) :
    Option Report :=
  if c.senderId = a.senderId then none
  else if c ∈ reports then some (adopted a.status g c)
  else some c

theorem of_joined {g : RowId} {c' : Report}
    (h : joined reports a g c = some c') :
    c.senderId ≠ a.senderId ∧
      (c ∈ reports ∧ c' = adopted a.status g c ∨ c ∉ reports ∧ c' = c) := by
  unfold joined at h
  split at h
  · cases h
  next hsender =>
    refine ⟨hsender, ?_⟩
    split at h
    next hmem => exact .inl ⟨hmem, (Option.some.inj h).symm⟩
    next hmem => exact .inr ⟨hmem, (Option.some.inj h).symm⟩

theorem Shelf.slot_adopt (hfiled : s.Filed)
    (hnodup : reports.Pairwise fun b c => b.id ≠ c.id)
    (hstored : ∀ c ∈ reports, ∃ i, s.slot i = some c)
    (hstale : ∀ id, id ∈ stale ↔ id ≠ s.last + 1 ∧
      ∃ r, s.slot id = some r ∧ r.senderId = a.senderId) (i : RowId) :
    (s.adopt reports a stale).slot i =
      if i = s.last + 1 then some a
      else (s.slot i).bind (joined reports a (s.last + 1)) := by
  have hid (c : Report) := (keeps_adopted a.status (s.last + 1) c).id
  rw [adopt, slot_dropAll]
  simp only [hstale]
  by_cases hi : i = s.last + 1
  · subst hi
    simp [slot_write_map_of_none hfiled hstored hid hfiled.slot_next]
  · have hput : (s.count.put (s.last + 1) a).slot i = s.slot i :=
      slot_put_of_ne s.count a hi
    cases hc : s.slot i with
    | none => simp [hi, slot_write_map_of_none hfiled hstored hid hc, hput, hc]
    | some c =>
        simp [hi, slot_write_map hfiled hnodup hstored hid hc, hput, hc, joined]

namespace Shelf.Adoption

theorem slot (h : s.Adoption reports a stale) (hfiled : s.Filed) (i : RowId) :
    (s.adopt reports a stale).slot i =
      if i = s.last + 1 then some a
      else (s.slot i).bind (joined reports a (s.last + 1)) :=
  slot_adopt hfiled h.nodup h.stored h.versions i

private theorem slot_last (h : s.Adoption reports a stale) (hfiled : s.Filed) :
    (s.adopt reports a stale).slot (s.last + 1) = some a := by
  rw [h.slot hfiled, if_pos rfl]

private theorem slot_of_some (h : s.Adoption reports a stale) (hfiled : s.Filed)
    (hslot : s.slot i = some c) :
    (s.adopt reports a stale).slot i = joined reports a (s.last + 1) c := by
  have hne : i ≠ s.last + 1 :=
    Nat.ne_of_lt (Nat.lt_succ_of_le (hfiled.le_last hslot))
  rw [h.slot hfiled, if_neg hne, hslot]
  rfl

theorem exists_of_slot (h : s.Adoption reports a stale) (hfiled : s.Filed)
    (hne : i ≠ s.last + 1) {c' : Report}
    (hslot : (s.adopt reports a stale).slot i = some c') :
    ∃ c, s.slot i = some c ∧ c.senderId ≠ a.senderId ∧
      (c ∈ reports ∧ c' = adopted a.status (s.last + 1) c ∨
        c ∉ reports ∧ c' = c) := by
  rw [h.slot hfiled, if_neg hne] at hslot
  obtain ⟨c, hc, hjoined⟩ := Option.bind_eq_some_iff.mp hslot
  exact ⟨c, hc, of_joined hjoined⟩

/-! ## The links afterwards -/

theorem senderId_ne (h : s.Adoption reports a stale) (hs : s.Sound)
    (hmem : c ∈ reports) :
    c.senderId ≠ a.senderId := by
  obtain ⟨i, hslot⟩ := h.stored c hmem
  rw [h.collector.sender]
  exact ((hs.linked _).ordinary_of_visible hslot rfl
    (h.visible c hmem)).senderId_ne _

theorem follows (h : s.Adoption reports a stale) (hs : s.Sound)
    (hslot : s.slot i = some c) (hmem : c ∈ reports) :
    Follows (s.adopt reports a stale).slot (s.last + 1) a i
      (adopted a.status (s.last + 1) c) := by
  obtain ⟨d, hd, hid⟩ := h.companion c hmem
  obtain ⟨j, hj⟩ := h.stored d hd
  refine ⟨text_setAggregatorId_rowId _ _, ?_, ?_, j,
    adopted a.status (s.last + 1) d, ?_, ?_, ?_, text_setAggregatorId_rowId _ _⟩
  · rw [adopted, status_setAggregatorId, status_setStatus]
  · rw [(keeps_adopted _ _ c).isAmendment, h.amendment c hmem]
  · rintro rfl
    rw [hslot, Option.some.injEq] at hj
    exact hid (hj ▸ rfl)
  · rw [h.slot_of_some hs.filed hj, joined, if_neg (h.senderId_ne hs hd),
      if_pos hd]
  · rw [(keeps_adopted _ _ d).dataCollection,
      (keeps_adopted _ _ c).dataCollection, h.collection d hd,
      h.collection c hmem]

theorem linked_self (h : s.Adoption reports a stale) (hs : s.Sound) :
    Linked (s.adopt reports a stale).slot a.dataCollection := by
  refine .of_single
    (h.slot_last hs.filed) h.collector rfl fun {i c'} hslot hdc hne => ?_
  obtain ⟨c, hc, hsender, ⟨hmem, hadopted⟩ | ⟨hmem, rfl⟩⟩ :=
    h.exists_of_slot hs.filed hne hslot
  · have hordinary :=
      (hs.linked _).ordinary_of_senderId_ne hc (h.collection c hmem)
      h.collector rfl hsender
    rw [hadopted]
    exact ⟨hordinary.keeps (keeps_adopted _ _ c), fun _ => h.follows hs hc hmem⟩
  · -- the batch was complete, so nothing else in the collection was linked
    have hordinary :=
      (hs.linked _).ordinary_of_senderId_ne hc hdc h.collector rfl hsender
    exact ⟨hordinary, fun hlink => absurd (h.complete hc hdc hlink) hmem⟩

theorem linked (h : s.Adoption reports a stale) (hs : s.Sound) (dc : String) :
    Linked (s.adopt reports a stale).slot dc := by
  by_cases hdc : a.dataCollection = dc
  · rw [← hdc]
    exact h.linked_self hs
  · refine (hs.linked dc).elsewhere h.collector hdc ?_ ?_
    · intro i c' hslot hcdc
      have hne : i ≠ s.last + 1 := by
        rintro rfl
        rw [h.slot_last hs.filed, Option.some.injEq] at hslot
        exact hdc (hslot ▸ hcdc)
      obtain ⟨c, hc, -, ⟨hmem, hadopted⟩ | ⟨-, rfl⟩⟩ :=
        h.exists_of_slot hs.filed hne hslot
      · rw [hadopted, (keeps_adopted _ _ c).dataCollection, h.collection c hmem]
          at hcdc
        exact absurd hcdc hdc
      · exact hc
    · intro i c hslot hcdc hsender
      have hmem : c ∉ reports :=
        fun hmem => hdc ((h.collection c hmem).symm.trans hcdc)
      rw [h.slot_of_some hs.filed hslot, joined, if_neg hsender, if_neg hmem]

end Shelf.Adoption

end ReportDesk.Report
