import ReportDesk.Proofs.Report.Linkage
import ReportDesk.Proofs.Report.Outcomes

/-!
# The end of an aggregator

Once an aggregator is finalized, what follows it is detached and the rows under
its sender id are removed, its own among them.
-/

namespace ReportDesk.Report

structure Shelf.Release (s : Shelf) (g : RowId) (a : Report) (status : Status)
    (followers : List Report) (versions : List RowId) : Prop where
  collector : a.Collector
  leads : Leads s.slot a.dataCollection g a
  nodup : followers.Pairwise fun b c => b.id ≠ c.id
  mem_followers : ∀ c, c ∈ followers ↔
    (∃ id, (s.put g (a.setStatus status)).slot id = some c) ∧
      c.text Columns.aggregatorId = g.text
  mem_versions : ∀ id, id ∈ versions ↔ ∃ r,
    (s.put g (a.setStatus status)).slot id = some r ∧ r.senderId = a.senderId

def Shelf.release (s : Shelf) (g : RowId) (a : Report) (status : Status)
    (followers : List Report) (versions : List RowId) : Shelf :=
  ((s.put g (a.setStatus status)).write
    (followers.map (detached status))).dropAll versions

variable {s : Shelf} {g i : RowId} {a c : Report} {status : Status}
  {followers : List Report} {versions : List RowId}

/-! ## The slots afterwards -/

def released (g : RowId) (a : Report) (status : Status) (c : Report) :
    Option Report :=
  if c.senderId = a.senderId then none
  else if c.text Columns.aggregatorId = g.text then some (detached status c)
  else some c

theorem Shelf.slot_release (hfiled : s.Filed) (hslot : s.slot g = some a)
    (hnodup : followers.Pairwise fun b c => b.id ≠ c.id)
    (hfollowers : ∀ c, c ∈ followers ↔
      (∃ id, (s.put g (a.setStatus status)).slot id = some c) ∧
        c.text Columns.aggregatorId = g.text)
    (hversions : ∀ id, id ∈ versions ↔ ∃ r,
      (s.put g (a.setStatus status)).slot id = some r ∧ r.senderId = a.senderId)
    (i : RowId) : (s.release g a status followers versions).slot i =
      (s.slot i).bind (released g a status) := by
  have hfiled' := hfiled.put_keeps hslot (keeps_setStatus a status)
  have hstored : ∀ c ∈ followers, ∃ id,
      (s.put g (a.setStatus status)).slot id = some c :=
    fun c hc => ((hfollowers c).mp hc).1
  have hid (c : Report) : (detached status c).id = c.id :=
    (keeps_detached status c).id
  rw [release, slot_dropAll]
  simp only [hversions]
  by_cases hi : i = g
  · -- the aggregator is one of its own versions
    subst hi
    simp [hslot, released, (keeps_setStatus a status).senderId]
  · cases hc : s.slot i with
    | none =>
        simp [slot_write_map_of_none hfiled' hstored hid,
          slot_put_of_ne s _ hi, hc]
    | some c =>
        have hput : (s.put g (a.setStatus status)).slot i = some c := by
          rw [slot_put_of_ne s _ hi, hc]
        have hmem : c ∈ followers ↔ c.text Columns.aggregatorId = g.text := by
          rw [hfollowers]
          exact and_iff_right ⟨i, hput⟩
        simp [slot_write_map hfiled' hnodup hstored hid hput, hput,
          hmem, released]

namespace Shelf.Release

theorem slot (h : s.Release g a status followers versions) (hfiled : s.Filed)
    (i : RowId) :
    (s.release g a status followers versions).slot i =
      (s.slot i).bind (released g a status) :=
  slot_release hfiled h.leads.stored h.nodup h.mem_followers h.mem_versions i

theorem exists_of_slot (h : s.Release g a status followers versions)
    (hfiled : s.Filed) {c' : Report}
    (hslot : (s.release g a status followers versions).slot i = some c') :
    ∃ c, s.slot i = some c ∧ c.senderId ≠ a.senderId ∧
      (c.text Columns.aggregatorId = g.text ∧ c' = detached status c ∨
        c.text Columns.aggregatorId ≠ g.text ∧ c' = c) := by
  rw [h.slot hfiled] at hslot
  obtain ⟨c, hc, hreleased⟩ := Option.bind_eq_some_iff.mp hslot
  refine ⟨c, hc, ?_⟩
  unfold released at hreleased
  split at hreleased
  · cases hreleased
  next hsender =>
    refine ⟨hsender, ?_⟩
    split at hreleased
    next hlink => exact .inl ⟨hlink, (Option.some.inj hreleased).symm⟩
    next hlink => exact .inr ⟨hlink, (Option.some.inj hreleased).symm⟩

private theorem slot_of_link_ne (h : s.Release g a status followers versions)
    (hfiled : s.Filed) (hslot : s.slot i = some c)
    (hsender : c.senderId ≠ a.senderId)
    (hlink : c.text Columns.aggregatorId ≠ g.text) :
    (s.release g a status followers versions).slot i = some c := by
  simp [h.slot hfiled, hslot, released, hsender, hlink]

/-! ## The links afterwards -/

theorem linked_self (h : s.Release g a status followers versions)
    (hs : s.Sound) :
    Linked (s.release g a status followers versions).slot a.dataCollection := by
  refine .of_unlinked fun {i c'} hslot hdc => ?_
  obtain ⟨c, hc, hsender, ⟨-, rfl⟩ | ⟨hlink, rfl⟩⟩ :=
    h.exists_of_slot hs.filed hslot
  · rw [(keeps_detached status c).dataCollection] at hdc
    have hordinary :=
      (hs.linked _).ordinary_of_senderId_ne hc hdc h.collector rfl hsender
    exact ⟨hordinary.keeps (keeps_detached status c),
      aggregatorId_setAggregatorId_none _⟩
  · refine ⟨(hs.linked _).ordinary_of_senderId_ne hc hdc h.collector rfl
      hsender, ?_⟩
    -- a link would lead to the first aggregator of the collection, which is
    -- this one
    by_contra hlinked
    obtain ⟨g', a', hleads, hfollows⟩ := (hs.linked _).leader hc hdc hlinked
    obtain ⟨rfl, -⟩ := h.leads.unique hleads
    exact hlink hfollows.link

theorem linked (h : s.Release g a status followers versions) (hs : s.Sound)
    (dc : String) :
    Linked (s.release g a status followers versions).slot dc := by
  by_cases hdc : a.dataCollection = dc
  · rw [← hdc]
    exact h.linked_self hs
  · refine (hs.linked dc).elsewhere h.collector hdc ?_ ?_
    · intro i c' hslot hcdc
      obtain ⟨c, hc, -, ⟨hlink, rfl⟩ | ⟨-, rfl⟩⟩ :=
        h.exists_of_slot hs.filed hslot
      · rw [(keeps_detached status c).dataCollection,
          hs.collection_of_link hc hlink h.leads.stored] at hcdc
        exact absurd hcdc hdc
      · exact hc
    · intro i c hslot hcdc hsender
      refine h.slot_of_link_ne hs.filed hslot hsender fun hlink => hdc ?_
      rw [← hcdc, hs.collection_of_link hslot hlink h.leads.stored]

end Shelf.Release

end ReportDesk.Report
