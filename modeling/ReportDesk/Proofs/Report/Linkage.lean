import ReportDesk.Proofs.Report.Cells
import ReportDesk.Proofs.Report.Shelf

/-!
# Reports and the aggregators they follow

In one data collection all linked reports follow the same aggregator, which is
the first one stored for the collection and is not finalized.  No report
follows alone: a batch of one is sent without an aggregator.
-/

namespace ReportDesk.Report

abbrev Slots := RowId → Option Report

/-- A report of the user, whose sender id is not that of an aggregator. -/
structure Ordinary (r : Report) : Prop where
  visible : r.isVisible = true
  sender : ¬ Aggregator.senderSuffix.toList <:+ r.senderId.toList

structure Collector (r : Report) : Prop where
  aggregator : r.isAggregator = true
  sender : r.senderId = r.dataCollection ++ Aggregator.senderSuffix
  amendment : r.isAmendment = true
  live : r.status.isFinalized = false
  unlinked : r.aggregatorId = none

structure Leads (slot : Slots) (dc : String) (g : RowId) (a : Report) :
    Prop where
  stored : slot g = some a
  aggregator : a.isAggregator = true
  collection : a.dataCollection = dc
  first : ∀ {g' a'}, slot g' = some a' → a'.isAggregator = true →
      a'.dataCollection = dc →
    g ≤ g'

/--
The report in slot `i` is linked to the aggregator in slot `g`, and not it
alone.
-/
structure Follows (slot : Slots) (g : RowId) (a : Report) (i : RowId)
    (c : Report) : Prop where
  link : c.text Columns.aggregatorId = g.text
  status : c.status = a.status
  amendment : c.isAmendment = true
  companion : ∃ j d,
      j ≠ i ∧ slot j = some d ∧ d.dataCollection = c.dataCollection ∧
    d.text Columns.aggregatorId = g.text

/-- What holds of the reports of one data collection between two steps. -/
structure Linked (slot : Slots) (dc : String) : Prop where
  kinds : ∀ {i r}, slot i = some r → r.dataCollection = dc →
    r.Ordinary ∨ r.Collector
  leader : ∀ {i c}, slot i = some c → c.dataCollection = dc →
      c.aggregatorId ≠ none →
    ∃ g a, Leads slot dc g a ∧ Follows slot g a i c

variable {slot slot' : Slots} {dc : String}

/-! ## Kinds -/

theorem Ordinary.not_aggregator {r : Report} (h : r.Ordinary) :
    r.isAggregator = false :=
  isVisible_iff.mp h.visible

theorem Collector.not_visible {r : Report} (h : r.Collector) :
    ¬ r.isVisible = true := by
  rw [isVisible_iff, h.aggregator]
  exact Bool.noConfusion

theorem Ordinary.keeps {r r' : Report} (h : r.Ordinary) (hkeep : r.Keeps r') :
    r'.Ordinary where
  visible := hkeep.isVisible.trans h.visible
  sender := by
    rw [hkeep.senderId]
    exact h.sender

theorem Collector.keeps {r r' : Report} (h : r.Collector) (hkeep : r.Keeps r')
    (hlink : r'.text Columns.aggregatorId = r.text Columns.aggregatorId)
    (hlive : r'.status.isFinalized = false) : r'.Collector where
  aggregator := hkeep.isAggregator.trans h.aggregator
  sender := by rw [hkeep.senderId, hkeep.dataCollection, h.sender]
  amendment := hkeep.isAmendment.trans h.amendment
  live := hlive
  unlinked := (aggregatorId_eq_of_text_eq hlink).trans h.unlinked

theorem Ordinary.senderId_ne {r : Report} (h : r.Ordinary) (dc : String) :
    r.senderId ≠ dc ++ Aggregator.senderSuffix := by
  intro heq
  refine h.sender ⟨dc.toList, ?_⟩
  rw [heq, String.toList_append]

private theorem Collector.dataCollection_eq {r : Report} (h : r.Collector)
    (hsender : r.senderId = dc ++ Aggregator.senderSuffix) :
    r.dataCollection = dc := by
  rw [h.sender] at hsender
  have hlists := congrArg String.toList hsender
  rw [String.toList_append, String.toList_append] at hlists
  exact String.toList_injective (List.append_cancel_right hlists)

theorem Follows.aggregatorId_ne_none {g i : RowId} {a c : Report}
    (h : Follows slot g a i c) : c.aggregatorId ≠ none := by
  rw [aggregatorId_of_text h.link]
  exact Option.some_ne_none _

theorem Collector.link_ne {r : Report} (h : r.Collector) (g : RowId) :
    r.text Columns.aggregatorId ≠ g.text :=
  text_ne_of_aggregatorId_none h.unlinked g

theorem Leads.unique {g g' : RowId} {a a' : Report} (h : Leads slot dc g a)
    (h' : Leads slot dc g' a') : g' = g ∧ a' = a := by
  have heq : g' = g := Nat.le_antisymm
    (h'.first h.stored h.aggregator h.collection)
    (h.first h'.stored h'.aggregator h'.collection)
  subst heq
  exact ⟨rfl, Option.some.inj (h'.stored.symm.trans h.stored)⟩

namespace Linked

theorem collector (h : Linked slot dc) {g : RowId} {a : Report}
    (hslot : slot g = some a) (hdc : a.dataCollection = dc)
    (ha : a.isAggregator = true) :
    a.Collector := by
  rcases h.kinds hslot hdc with hordinary | hcollector
  · rw [hordinary.not_aggregator] at ha
    cases ha
  · exact hcollector

theorem ordinary_of_visible (h : Linked slot dc) {i : RowId} {c : Report}
    (hslot : slot i = some c) (hdc : c.dataCollection = dc)
    (hvisible : c.isVisible = true) :
    c.Ordinary :=
  (h.kinds hslot hdc).resolve_right fun hcollector =>
    hcollector.not_visible hvisible

theorem ordinary (h : Linked slot dc) {i : RowId} {c : Report}
    (hslot : slot i = some c) (hdc : c.dataCollection = dc)
    (hlink : c.aggregatorId ≠ none) :
    c.Ordinary := by
  rcases h.kinds hslot hdc with hordinary | hcollector
  · exact hordinary
  · exact absurd hcollector.unlinked hlink

theorem ordinary_of_senderId_ne (h : Linked slot dc) {i : RowId} {a c : Report}
    (hslot : slot i = some c) (hdc : c.dataCollection = dc) (ha : a.Collector)
    (hdc' : a.dataCollection = dc) (hne : c.senderId ≠ a.senderId) :
    c.Ordinary := by
  rcases h.kinds hslot hdc with hordinary | hcollector
  · exact hordinary
  · rw [hcollector.sender, ha.sender, hdc, hdc'] at hne
    exact absurd rfl hne

theorem senderId_ne (h : Linked slot dc) {i : RowId} {a c : Report}
    (hslot : slot i = some c) (hdc : c.dataCollection = dc) (ha : a.Collector)
    (hne : a.dataCollection ≠ dc) :
    c.senderId ≠ a.senderId := by
  rw [ha.sender]
  intro heq
  rcases h.kinds hslot hdc with hordinary | hcollector
  · exact hordinary.senderId_ne _ heq
  · exact hne ((hcollector.dataCollection_eq heq).symm.trans hdc)

/-! ## Steps that leave the links alone -/

theorem congr (h : Linked slot dc) (heq : ∀ i r, r.dataCollection = dc →
      (slot' i = some r ↔ slot i = some r)) :
    Linked slot' dc := by
  constructor
  · intro i r hslot hdc
    exact h.kinds ((heq i r hdc).mp hslot) hdc
  · intro i c hslot hdc hlink
    obtain ⟨g, a, hleads, hfollows⟩ :=
      h.leader ((heq i c hdc).mp hslot) hdc hlink
    obtain ⟨j, d, hne, hd, hddc, hdlink⟩ := hfollows.companion
    refine ⟨g, a,
      ⟨(heq g a hleads.collection).mpr hleads.stored, hleads.aggregator,
        hleads.collection, ?_⟩,
        ⟨hfollows.link, hfollows.status, hfollows.amendment, j, d, hne,
          (heq j d (hddc.trans hdc)).mpr hd, hddc, hdlink⟩⟩
    intro g' a' hslot' ha' hdc'
    exact hleads.first ((heq g' a' hdc').mp hslot') ha' hdc'

theorem put (h : Linked slot dc) {i : RowId} {r : Report}
    (hfresh : ∀ {j other}, slot j = some other → j < i)
    (hkind : r.Ordinary ∨ r.Collector) (hunlinked : r.aggregatorId = none) :
    Linked (Function.update slot i (some r)) dc := by
  have hold {j : RowId} {other : Report} (hslot : slot j = some other) :
      Function.update slot i (some r) j = some other := by
    rw [Function.update_of_ne (Nat.ne_of_lt (hfresh hslot)), hslot]
  have hcases {j : RowId} {other : Report}
      (hslot : Function.update slot i (some r) j = some other) :
      (j = i ∧ other = r) ∨ slot j = some other := by
    by_cases heq : j = i
    · subst heq
      rw [Function.update_self, Option.some.injEq] at hslot
      exact .inl ⟨rfl, hslot.symm⟩
    · rw [Function.update_of_ne heq] at hslot
      exact .inr hslot
  constructor
  · intro j other hslot hdc
    rcases hcases hslot with ⟨-, rfl⟩ | hslot
    · exact hkind
    · exact h.kinds hslot hdc
  · intro j c hslot hdc hlink
    rcases hcases hslot with ⟨-, rfl⟩ | hslot
    · exact absurd hunlinked hlink
    · obtain ⟨g, a, hleads, hfollows⟩ := h.leader hslot hdc hlink
      obtain ⟨k, d, hne, hd, hddc, hdlink⟩ := hfollows.companion
      refine ⟨g, a,
        ⟨hold hleads.stored, hleads.aggregator, hleads.collection, ?_⟩,
        hfollows.link, hfollows.status, hfollows.amendment, k, d, hne, hold hd,
        hddc, hdlink⟩
      intro g' a' hslot' ha' hdc'
      rcases hcases hslot' with ⟨rfl, -⟩ | hslot'
      · exact Nat.le_of_lt (hfresh hleads.stored)
      · exact hleads.first hslot' ha' hdc'

theorem map (h : Linked slot dc) (f : RowId → Report → Report)
    (hkeep : ∀ {i r}, slot i = some r → r.Keeps (f i r))
    (hlink : ∀ {i r}, slot i = some r →
      (f i r).text Columns.aggregatorId = r.text Columns.aggregatorId)
    (hlive : ∀ {g a}, slot g = some a → a.Collector →
      (f g a).status.isFinalized = false)
    (hagree : ∀ {i c g a}, slot i = some c → c.dataCollection = dc →
      Leads slot dc g a →
      Follows slot g a i c → (f i c).status = (f g a).status) :
    Linked (fun i => (slot i).map (f i)) dc := by
  have hstored {i : RowId} {r : Report} (hslot : slot i = some r) :
      (slot i).map (f i) = some (f i r) := by rw [hslot, Option.map_some]
  constructor
  · intro i r' hslot' hdc
    obtain ⟨r, hslot, rfl⟩ := Option.map_eq_some_iff.mp hslot'
    rw [(hkeep hslot).dataCollection] at hdc
    rcases h.kinds hslot hdc with hordinary | hcollector
    · exact .inl (hordinary.keeps (hkeep hslot))
    · exact .inr
        (hcollector.keeps (hkeep hslot) (hlink hslot) (hlive hslot hcollector))
  · intro i c' hslot' hdc hlinked
    obtain ⟨c, hslot, rfl⟩ := Option.map_eq_some_iff.mp hslot'
    rw [(hkeep hslot).dataCollection] at hdc
    rw [aggregatorId_eq_of_text_eq (hlink hslot)] at hlinked
    obtain ⟨g, a, hleads, hfollows⟩ := h.leader hslot hdc hlinked
    refine ⟨g, f g a, ⟨hstored hleads.stored, ?_, ?_, ?_⟩, ?_, ?_, ?_, ?_⟩
    · rw [(hkeep hleads.stored).isAggregator, hleads.aggregator]
    · rw [(hkeep hleads.stored).dataCollection, hleads.collection]
    · intro g' a' hslot' ha' hdc'
      obtain ⟨old, hold, rfl⟩ := Option.map_eq_some_iff.mp hslot'
      rw [(hkeep hold).isAggregator] at ha'
      rw [(hkeep hold).dataCollection] at hdc'
      exact hleads.first hold ha' hdc'
    · rw [hlink hslot, hfollows.link]
    · exact hagree hslot hdc hleads hfollows
    · rw [(hkeep hslot).isAmendment, hfollows.amendment]
    · obtain ⟨j, d, hne, hd, hddc, hdlink⟩ := hfollows.companion
      refine ⟨j, f j d, hne, hstored hd, ?_, ?_⟩
      · rw [(hkeep hd).dataCollection, (hkeep hslot).dataCollection, hddc]
      · rw [hlink hd, hdlink]

theorem assign (h : Linked slot dc) (status : Status)
    (marked : RowId → Report → Prop)
    [∀ i c, Decidable (marked i c)]
    (hlive : ∀ {g a}, slot g = some a → a.Collector → marked g a →
      status.isFinalized = false)
    (hmarked : ∀ {i c g a}, slot i = some c → c.dataCollection = dc →
      Leads slot dc g a →
      Follows slot g a i c → (marked i c ↔ marked g a)) :
    Linked (fun i => (slot i).map fun c => if marked i c then c.setStatus status
      else c) dc := by
  refine h.map _ ?_ ?_ ?_ ?_
  · intro i c _
    split
    · exact keeps_setStatus c status
    · exact Keeps.refl c
  · intro i c _
    split
    · exact text_setStatus_of_ne c status (by decide) (by decide)
    · rfl
  · intro g a hslot hcollector
    split
    next hm => rw [status_setStatus, hlive hslot hcollector hm]
    next => exact hcollector.live
  · intro i c g a hslot hdc hleads hfollows
    have hiff := hmarked hslot hdc hleads hfollows
    by_cases hm : marked i c
    · rw [if_pos hm, if_pos (hiff.mp hm), status_setStatus, status_setStatus]
    · rw [if_neg hm, if_neg fun hm' => hm (hiff.mpr hm'), hfollows.status]

theorem elsewhere (h : Linked slot dc) {a : Report} (ha : a.Collector)
    (hne : a.dataCollection ≠ dc)
    (hold : ∀ {i c}, slot' i = some c → c.dataCollection = dc → slot i = some c)
    (hkept : ∀ {i c}, slot i = some c → c.dataCollection = dc →
      c.senderId ≠ a.senderId →
      slot' i = some c) : Linked slot' dc :=
  h.congr fun _ _ hdc =>
    ⟨fun hc => hold hc hdc,
      fun hc => hkept hc hdc (h.senderId_ne hc hdc ha hne)⟩

/-! ## Steps that change the links -/

theorem of_unlinked (h : ∀ {i r}, slot i = some r → r.dataCollection = dc →
    r.Ordinary ∧ r.aggregatorId = none) : Linked slot dc where
  kinds := fun hslot hdc => .inl (h hslot hdc).1
  leader := fun hslot hdc hlink => absurd (h hslot hdc).2 hlink

theorem of_single {g : RowId} {a : Report} (hslot : slot g = some a)
    (ha : a.Collector) (hdc : a.dataCollection = dc)
    (hrest : ∀ {i r}, slot i = some r → r.dataCollection = dc → i ≠ g →
      r.Ordinary ∧ (r.aggregatorId ≠ none → Follows slot g a i r)) :
        Linked slot dc := by
  constructor
  · intro i r hslot' hdc'
    by_cases heq : i = g
    · rw [heq, hslot, Option.some.injEq] at hslot'
      exact .inr (hslot' ▸ ha)
    · exact .inl (hrest hslot' hdc' heq).1
  · intro i c hslot' hdc' hlink
    by_cases heq : i = g
    · rw [heq, hslot, Option.some.injEq] at hslot'
      exact absurd (hslot' ▸ ha.unlinked) hlink
    · refine ⟨g, a, ⟨hslot, ha.aggregator, hdc, ?_⟩,
        (hrest hslot' hdc' heq).2 hlink⟩
      intro g' a' hslot'' ha' hdc''
      by_cases hg : g' = g
      · exact Nat.le_of_eq hg.symm
      · rw [(hrest hslot'' hdc'' hg).1.not_aggregator] at ha'
        cases ha'

end Linked

/-! ## All collections -/

/--
Every report is filed in its slot, and the links are right in every collection.
-/
structure Shelf.Sound (s : Shelf) : Prop where
  filed : s.Filed
  linked : ∀ dc, Linked s.slot dc

variable {s : Shelf}

theorem Shelf.Sound.leader (h : s.Sound) (hlast : s.last < Numeral.word64)
    {i : RowId} {c : Report} (hslot : s.slot i = some c)
    (hlink : c.aggregatorId ≠ none) :
    ∃ g a, c.aggregatorRowId = some g ∧ a.Collector ∧
      Leads s.slot c.dataCollection g a ∧
      Follows s.slot g a i c := by
  obtain ⟨g, a, hleads, hfollows⟩ :=
    (h.linked c.dataCollection).leader hslot rfl hlink
  refine ⟨g, a, ?_, ?_, hleads, hfollows⟩
  · exact aggregatorRowId_of_text hfollows.link
      (Nat.lt_of_le_of_lt (h.filed.le_last hleads.stored) hlast)
  · exact (h.linked _).collector hleads.stored hleads.collection
      hleads.aggregator

theorem Shelf.Sound.collection_of_link (h : s.Sound) {i g : RowId}
    {a c : Report} (hslot : s.slot i = some c)
    (hlink : c.text Columns.aggregatorId = g.text)
    (hstored : s.slot g = some a) : c.dataCollection = a.dataCollection := by
  have hlinked : c.aggregatorId ≠ none := by
    rw [aggregatorId_of_text hlink]
    exact Option.some_ne_none _
  obtain ⟨g', a', hleads, hfollows⟩ := (h.linked _).leader hslot rfl hlinked
  obtain rfl := RowId.text_injective (hfollows.link.symm.trans hlink)
  obtain rfl : a' = a := Option.some.inj (hleads.stored.symm.trans hstored)
  exact hleads.collection.symm

end ReportDesk.Report
