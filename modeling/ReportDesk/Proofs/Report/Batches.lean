import ReportDesk.Proofs.Report.Linkage

/-!
# The batch of a data collection

A batch is either made of reports without a link, and then the collection has
no links at all, or it is everything that follows the collection's aggregator.
-/

namespace ReportDesk.Report.Batch

variable {r : Repository} {dc : String}

theorem find?_eq_of_first {α : Type} {R : α → α → Prop} {p : α → Bool}
    {l : List α} {x : α} (hp : l.Pairwise R) (hmem : x ∈ l) (hx : p x = true)
    (hfirst : ∀ y ∈ l, R y x → p y = false) : l.find? p = some x := by
  induction l with
  | nil => exact absurd hmem List.not_mem_nil
  | cons y rest ih =>
      obtain ⟨hy, hrest⟩ := List.pairwise_cons.mp hp
      rcases List.mem_cons.mp hmem with rfl | hmem
      · exact List.find?_cons_of_pos hx
      · have hskip : p y = false := hfirst y List.mem_cons_self (hy x hmem)
        rw [List.find?_cons_of_neg (by simp [hskip])]
        exact ih hrest hmem fun z hz => hfirst z (List.mem_cons_of_mem y hz)

structure Candidate (r : Repository) (dc : String) (c : Report) : Prop where
  stored : ∃ id, r.shelf.slot id = some c
  collection : c.dataCollection = dc
  visible : c.isVisible = true
  amendment : c.isAmendment = true
  live : c.status.isFinalized = false

private theorem candidate_iff {c : Report} :
    Candidate r dc c ↔ c ∈ r.all.filter fun c =>
      c.isVisible && inProgress dc c := by
  simp only [List.mem_filter, Repository.mem_all, inProgress, Bool.and_eq_true,
    beq_iff_eq, Bool.not_eq_true']
  constructor
  · intro h
    exact ⟨h.stored, h.visible, ⟨h.collection, h.amendment⟩, h.live⟩
  · rintro ⟨hstored, hvisible, ⟨hdc, hamendment⟩, hlive⟩
    exact ⟨hstored, hdc, hvisible, hamendment, hlive⟩

theorem load_aggregator (r : Repository) (dc : String) :
    (load r dc).aggregator = r.all.find? fun c =>
      c.isAggregator && inProgress dc c := by
  unfold load
  simp only
  split <;> rfl

theorem load_of_aggregator {a : Report} {g : RowId}
    (hfind : r.all.find? (fun c => c.isAggregator && inProgress dc c) = some a)
    (hid : a.id = some g) :
    load r dc =
      ⟨some a,
        (r.all.filter fun c => c.isVisible && inProgress dc c).filter fun c =>
          c.aggregatorRowId == some g⟩ := by
  unfold load
  simp only [hfind, Option.bind_some, hid]

theorem load_reports (r : Repository) (dc : String) :
    ∃ p : Report → Bool, (load r dc).reports =
      (r.all.filter fun c => c.isVisible && inProgress dc c).filter p := by
  unfold load
  simp only
  split
  · exact ⟨_, rfl⟩
  · exact ⟨_, rfl⟩

theorem candidate_of_mem {c : Report} (h : c ∈ (load r dc).reports) :
    Candidate r dc c := by
  obtain ⟨p, hp⟩ := load_reports r dc
  rw [hp] at h
  exact candidate_iff.mpr (List.mem_filter.mp h).1

theorem listed_load (hfiled : r.shelf.Filed) :
    (load r dc).reports.Pairwise fun a b => ∀ i j,
      a.id = some i → b.id = some j → i < j := by
  obtain ⟨p, hp⟩ := load_reports r dc
  rw [hp]
  exact ((Repository.pairwise_all hfiled).filter _).filter _

theorem pairwise_load (hfiled : r.shelf.Filed) :
    (load r dc).reports.Pairwise fun a b => a.id ≠ b.id := by
  obtain ⟨p, hp⟩ := load_reports r dc
  rw [hp]
  exact ((Repository.nodup_all hfiled).filter _).filter _

theorem find?_of_leads (hfiled : r.shelf.Filed) {g : RowId} {a : Report}
    (hleads : Leads r.shelf.slot dc g a) (ha : a.Collector) :
    r.all.find? (fun c => c.isAggregator && inProgress dc c) = some a := by
  refine find?_eq_of_first (Repository.pairwise_all hfiled)
    (Repository.mem_all.mpr ⟨g, hleads.stored⟩) ?_ ?_
  · simp [inProgress, hleads.aggregator, hleads.collection,
      ha.amendment, ha.live]
  · -- an aggregator before the first one would have a smaller id
    intro b hb hlt
    obtain ⟨g', hslot⟩ := Repository.mem_all.mp hb
    have hless : g' < g := hlt g' g (hfiled.id hslot) (hfiled.id hleads.stored)
    rw [Bool.and_eq_false_iff]
    by_cases hb' : b.isAggregator = true
    · right
      have hother : b.dataCollection ≠ dc := fun hdc =>
        Nat.not_lt_of_le (hleads.first hslot hb' hdc) hless
      simp [inProgress, hother]
    · left
      simpa using hb'

theorem mem_load_of_leads (hfiled : r.shelf.Filed) {g : RowId} {a c : Report}
    (hleads : Leads r.shelf.slot dc g a) (ha : a.Collector) :
    c ∈ (load r dc).reports ↔
      Candidate r dc c ∧ c.aggregatorRowId = some g := by
  rw [load_of_aggregator (find?_of_leads hfiled hleads ha)
    (hfiled.id hleads.stored), List.mem_filter, ← candidate_iff, beq_iff_eq]

/-- A batch without links, or all the reports that follow one aggregator. -/
theorem load_cases (hfiled : r.shelf.Filed) (hlinked : Linked r.shelf.slot dc)
    (hlast : r.shelf.last < Numeral.word64) :
    (∀ {i c}, r.shelf.slot i = some c → c.dataCollection = dc →
        c.aggregatorId = none) ∨
      ∃ g a, Leads r.shelf.slot dc g a ∧ a.Collector ∧
        ∀ {i c}, r.shelf.slot i = some c → c.dataCollection = dc →
          (c ∈ (load r dc).reports ↔ c.aggregatorId ≠ none) ∧
          (c.aggregatorId ≠ none → Follows r.shelf.slot g a i c) := by
  by_cases hlink : ∃ i c, r.shelf.slot i = some c ∧ c.dataCollection = dc ∧
      c.aggregatorId ≠ none
  · right
    obtain ⟨i, c, hslot, hdc, hlink⟩ := hlink
    obtain ⟨g, a, hleads, -⟩ := hlinked.leader hslot hdc hlink
    have ha : a.Collector :=
      hlinked.collector hleads.stored hleads.collection hleads.aggregator
    have hg : g < Numeral.word64 :=
      Nat.lt_of_le_of_lt (hfiled.le_last hleads.stored) hlast
    -- the leader is the only one, since both are the first of the collection
    have hfollows {i : RowId} {c : Report} (hslot : r.shelf.slot i = some c)
        (hdc : c.dataCollection = dc) (hlink : c.aggregatorId ≠ none) :
        Follows r.shelf.slot g a i c := by
      obtain ⟨g', a', hleads', hfollows'⟩ := hlinked.leader hslot hdc hlink
      obtain ⟨rfl, rfl⟩ := hleads.unique hleads'
      exact hfollows'
    refine ⟨g, a, hleads, ha, fun {i c} hslot hdc => ⟨?_, hfollows hslot hdc⟩⟩
    rw [mem_load_of_leads hfiled hleads ha]
    constructor
    · rintro ⟨-, hrow⟩ hnone
      rw [aggregatorRowId, hnone] at hrow
      cases hrow
    · intro hlink
      have hfollow := hfollows hslot hdc hlink
      refine ⟨⟨⟨i, hslot⟩, hdc, (hlinked.ordinary hslot hdc hlink).visible,
        hfollow.amendment, ?_⟩, aggregatorRowId_of_text hfollow.link hg⟩
      rw [hfollow.status, ha.live]
  · left
    intro i c hslot hdc
    rw [← Option.not_isSome_iff_eq_none, ← Option.ne_none_iff_isSome]
    exact fun hne => hlink ⟨i, c, hslot, hdc, hne⟩

end ReportDesk.Report.Batch
