import ReportDesk.Proofs.Report.Adoption
import ReportDesk.Proofs.Report.Batches
import ReportDesk.Proofs.Report.Release

/-!
# The links survive every outcome

Whatever a step did to the slots, the reports of every data collection are
still linked as they should be.
-/

namespace ReportDesk.Report

variable {s : Shelf} {r : Repository} {dc : String}

/-! ## New aggregators -/

theorem highestVersion_eq (reports : List Report) :
    Aggregator.highestVersion reports =
      (reports.filterMap fun r => Version.number? r.version).max?.getD 0 := by
  rw [Aggregator.highestVersion, List.foldl_max, Nat.zero_max]

theorem le_highestVersion {reports : List Report} {r : Report} {n : Nat}
    (hr : r ∈ reports) (hn : Version.number? r.version = some n) :
    n ≤ Aggregator.highestVersion reports := by
  rw [highestVersion_eq]
  exact List.le_max?_getD_of_mem (List.mem_filterMap.mpr ⟨r, hr, hn⟩)

theorem highestVersion_attained (reports : List Report) :
    Aggregator.highestVersion reports = 0 ∨
      ∃ r ∈ reports,
        Version.number? r.version =
          some (Aggregator.highestVersion reports) := by
  rw [highestVersion_eq]
  cases hmax : (reports.filterMap fun r => Version.number? r.version).max? with
  | none => exact .inl rfl
  | some n => exact .inr (List.mem_filterMap.mp (List.max?_mem hmax))

private theorem highestVersion_lt (reports : List Report) :
    Aggregator.highestVersion reports < Numeral.word32 := by
  rcases highestVersion_attained reports with hzero | ⟨r, -, hn⟩
  · rw [hzero]
    decide
  · exact Version.number?_lt hn

theorem isAmendment_iff {r : Report} :
    r.isAmendment = true ↔ ∃ n, Version.number? r.version = some n ∧ 0 < n := by
  simp [isAmendment, Version.isAmendment, Option.any_eq_true]

theorem number?_aggregatorFor (s : Shelf) (reports : List Report)
    (first : Report) :
    Version.number? (s.aggregatorFor reports first).version =
      some (Aggregator.highestVersion reports) := by
  obtain ⟨-, -, -, hversion, -⟩ := aggregatorFor_cells s reports first
  rw [version, hversion, Version.number?_ofNumber (highestVersion_lt reports)]

theorem collector_aggregatorFor {reports : List Report} {first : Report}
    (hfirst : first ∈ reports) (hamendment : first.isAmendment = true) :
    (s.aggregatorFor reports first).Collector ∧
      (s.aggregatorFor reports first).dataCollection =
        first.dataCollection := by
  obtain ⟨-, hdc, hsender, -, hlink⟩ := aggregatorFor_cells s reports first
  change (s.aggregatorFor reports first).dataCollection =
    first.dataCollection at hdc
  refine ⟨⟨isAggregator_aggregatorFor _ _ _, ?_, ?_, ?_, ?_⟩, hdc⟩
  · rw [senderId, hsender, hdc]
  · obtain ⟨n, hn, hpos⟩ := isAmendment_iff.mp hamendment
    exact isAmendment_iff.mpr ⟨_, number?_aggregatorFor s reports first,
      Nat.lt_of_lt_of_le hpos (le_highestVersion hfirst hn)⟩
  · have hstatus : (s.aggregatorFor reports first).status = .locallyValidated :=
      status_setStatus _ _
    rw [hstatus]
    rfl
  · rw [aggregatorId, hlink]
    decide

/-! ## Steps that leave the links alone -/

theorem Shelf.Sound.replace (h : s.Sound) {id : RowId} {c c' : Report}
    (hslot : s.slot id = some c) (hvisible : c.isVisible = true)
    (hunlinked : c.aggregatorId = none) (hkeep : c.Keeps c')
    (hlink : c'.text Columns.aggregatorId = c.text Columns.aggregatorId) :
    Linked (s.put id c').slot dc := by
  have haggregator : c.isAggregator = false := isVisible_iff.mp hvisible
  let f (i : RowId) (r : Report) : Report := if i = id then c' else r
  have hmap : (s.put id c').slot = fun i => (s.slot i).map (f i) := by
    funext i
    by_cases heq : i = id
    · simp [heq, hslot, f]
    · rw [Shelf.slot_put_of_ne s c' heq]
      simp [f, heq]
  rw [hmap]
  refine (h.linked dc).map f ?_ ?_ ?_ ?_
  · intro i r hr
    by_cases heq : i = id
    · have hsame : c = r := Option.some.inj (hslot.symm.trans (heq ▸ hr))
      subst heq hsame
      simpa [f] using hkeep
    · simpa [f, heq] using Keeps.refl r
  · intro i r hr
    by_cases heq : i = id
    · have hsame : c = r := Option.some.inj (hslot.symm.trans (heq ▸ hr))
      subst heq hsame
      simpa [f] using hlink
    · simp [f, heq]
  · intro g a ha hcollector
    have hne : g ≠ id := by
      rintro rfl
      rw [hslot, Option.some.injEq] at ha
      rw [ha, hcollector.aggregator] at haggregator
      cases haggregator
    simpa [f, hne] using hcollector.live
  · intro i r g a hr _ hleads hfollows
    have hi : i ≠ id := by
      rintro rfl
      rw [hslot, Option.some.injEq] at hr
      exact hfollows.aggregatorId_ne_none (hr ▸ hunlinked)
    have hg : g ≠ id := by
      rintro rfl
      have hsame : c = a := Option.some.inj (hslot.symm.trans hleads.stored)
      rw [hsame, hleads.aggregator] at haggregator
      cases haggregator
    simpa [f, hi, hg] using hfollows.status

theorem Shelf.Sound.store (h : s.Sound) {r : Report}
    (hkind : r.Ordinary ∨ r.Collector) (hunlinked : r.aggregatorId = none) :
    Linked (s.count.put (s.last + 1) r).slot dc :=
  (h.linked dc).put
    (fun hslot => Nat.lt_succ_of_le (h.filed.le_last hslot)) hkind hunlinked

theorem Shelf.Sound.assign (h : s.Sound) {g : RowId} {a : Report}
    {others : List Report} {status : Status} (hslot : s.slot g = some a)
    (hnodup : others.Pairwise fun b c => b.id ≠ c.id)
    (hothers : ∀ c ∈ others, ∃ i, i ≠ g ∧ s.slot i = some c)
    (hlive : a.Collector → status.isFinalized = false)
    (hordinary : ∀ c ∈ others, ¬ c.Collector)
    (hmarked : ∀ {i c g' a'}, s.slot i = some c →
      Leads s.slot c.dataCollection g' a' →
      Follows s.slot g' a' i c → ((i = g ∨ c ∈ others) ↔ g' = g)) :
    Linked ((s.put g (a.setStatus status)).write
      (others.map fun c => c.setStatus status)).slot dc := by
  have hstored : ∀ c ∈ others, ∃ i, s.slot i = some c := fun c hc =>
    (hothers c hc).imp fun _ hi => hi.2
  have hmap : ((s.put g (a.setStatus status)).write
      (others.map fun c => c.setStatus status)).slot =
      fun i => (s.slot i).map fun c =>
        if i = g ∨ c ∈ others then c.setStatus status else c :=
    funext (Shelf.slot_assign h.filed hslot hnodup hstored)
  rw [hmap]
  refine (h.linked dc).assign status _ ?_ ?_
  · intro g' a' hslot' hcollector hm
    rcases hm with rfl | hm
    · have hsame : a' = a := Option.some.inj (hslot'.symm.trans hslot)
      exact hlive (hsame ▸ hcollector)
    · exact absurd hcollector (hordinary a' hm)
  · intro i c g' a' hi hdc hleads hfollows
    subst hdc
    have hcollector := (h.linked _).collector hleads.stored hleads.collection
      hleads.aggregator
    rw [hmarked hi hleads hfollows]
    exact ⟨.inl, fun hm => hm.resolve_right fun hm =>
      hordinary a' hm hcollector⟩

/-! ## Submitting a batch -/

private theorem candidate_not_collector {c : Report}
    (hc : c ∈ (Batch.load r dc).reports) :
    ¬ c.Collector :=
  fun hcollector => hcollector.not_visible (Batch.candidate_of_mem hc).visible

private theorem submitted_of_unlinked (h : r.shelf.Sound) {id : RowId}
    {target : Report}
    (hnone : ∀ {i c}, r.shelf.slot i = some c → c.dataCollection = dc →
      c.aggregatorId = none)
    (hslot : r.shelf.slot id = some target)
    (htarget : target ∈ (Batch.load r dc).reports)
    {i : RowId} {c : Report} {g' : RowId} {a' : Report}
    (hi : r.shelf.slot i = some c)
    (hleads : Leads r.shelf.slot c.dataCollection g' a')
    (hfollows : Follows r.shelf.slot g' a' i c) :
    (i = id ∨ c ∈ (Batch.load r dc).reports.filter fun r => r.id != some id) ↔
      g' = id := by
  have hlinked := hfollows.aggregatorId_ne_none
  constructor
  · rintro (rfl | hc)
    · obtain rfl : c = target := Option.some.inj (hi.symm.trans hslot)
      exact absurd (hnone hi (Batch.candidate_of_mem htarget).collection)
        hlinked
    · have hdc := (Batch.candidate_of_mem (List.mem_filter.mp hc).1).collection
      exact absurd (hnone hi hdc) hlinked
  · rintro rfl
    obtain rfl : a' = target := Option.some.inj (hleads.stored.symm.trans hslot)
    have hcollector :=
      (h.linked _).collector hslot hleads.collection hleads.aggregator
    exact absurd (Batch.candidate_of_mem htarget).visible hcollector.not_visible

private theorem submitted_of_leader (h : r.shelf.Sound) {g : RowId} {a : Report}
    (hleader : Leads r.shelf.slot dc g a) (hcollector : a.Collector)
    (hmem : ∀ {i c}, r.shelf.slot i = some c → c.dataCollection = dc →
      (c ∈ (Batch.load r dc).reports ↔ c.aggregatorId ≠ none) ∧
      (c.aggregatorId ≠ none → Follows r.shelf.slot g a i c))
    {i : RowId} {c : Report} {g' : RowId} {a' : Report}
    (hi : r.shelf.slot i = some c)
    (hleads : Leads r.shelf.slot c.dataCollection g' a')
    (hfollows : Follows r.shelf.slot g' a' i c) :
    (i = g ∨ c ∈ (Batch.load r dc).reports.filter fun r => r.id != some g) ↔
      g' = g := by
  have hlinked := hfollows.aggregatorId_ne_none
  have hne : i ≠ g := by
    rintro rfl
    obtain rfl : c = a := Option.some.inj (hi.symm.trans hleader.stored)
    exact hlinked hcollector.unlinked
  constructor
  · rintro (heq | hc)
    · exact absurd heq hne
    · have hdc := (Batch.candidate_of_mem (List.mem_filter.mp hc).1).collection
      exact RowId.text_injective
        (hfollows.link.symm.trans ((hmem hi hdc).2 hlinked).link)
  · rintro rfl
    obtain rfl : a' = a :=
      Option.some.inj (hleads.stored.symm.trans hleader.stored)
    have hdc : c.dataCollection = dc :=
      hleads.collection.symm.trans hleader.collection
    refine .inr (List.mem_filter.mpr ⟨(hmem hi hdc).1.mpr hlinked, ?_⟩)
    rw [h.filed.id hi, bne_iff_ne]
    exact fun heq => hne (Option.some.inj heq)

theorem Submits.linked {answered : Status → Prop} {s' : Shelf}
    (h : r.shelf.Sound) (hlast : r.shelf.last < Numeral.word64)
    (hanswered : ∀ {status}, answered status → status.isFinalized = false)
    (hsubmits : Submits r.shelf (Batch.load r dc).reports answered s')
    (dc' : String) :
    Linked s'.slot dc' := by
  cases hsubmits with
  | refused => exact h.linked dc'
  | @done first target rest id status hreports htarget hslot hanswer =>
      have hfirst : first ∈ (Batch.load r dc).reports := by simp [hreports]
      obtain ⟨i₀, hslot₀⟩ := (Batch.candidate_of_mem hfirst).stored
      have hdc₀ := (Batch.candidate_of_mem hfirst).collection
      refine h.assign hslot ((Batch.pairwise_load h.filed).filter _) ?_
        (fun _ => hanswered hanswer) ?_ ?_
      · intro c hc
        obtain ⟨hc, hid⟩ := List.mem_filter.mp hc
        obtain ⟨i, hi⟩ := (Batch.candidate_of_mem hc).stored
        refine ⟨i, ?_, hi⟩
        rintro rfl
        simp [h.filed.id hi] at hid
      · exact fun c hc => candidate_not_collector (List.mem_filter.mp hc).1
      · intro i c g' a' hi hleads hfollows
        rcases Batch.load_cases h.filed (h.linked dc) hlast with
          hnone | ⟨g, a, hleader, hcollector, hmem⟩
        · obtain ⟨-, rfl⟩ : first.aggregatorId = none ∧ target = first := by
            refine htarget.resolve_right fun hrow => ?_
            rw [aggregatorRowId, hnone hslot₀ hdc₀] at hrow
            cases hrow
          exact submitted_of_unlinked h hnone hslot hfirst hi hleads hfollows
        · have hlinked := (hmem hslot₀ hdc₀).1.mp hfirst
          have hrow : first.aggregatorRowId = some g :=
            aggregatorRowId_of_text ((hmem hslot₀ hdc₀).2 hlinked).link
              (Nat.lt_of_le_of_lt (h.filed.le_last hleader.stored) hlast)
          obtain rfl : id = g := by
            rcases htarget with ⟨hnone, -⟩ | htarget
            · exact absurd hnone hlinked
            · exact Option.some.inj (htarget.symm.trans hrow)
          exact submitted_of_leader h hleader hcollector hmem hi hleads hfollows

/-! ## Sending a batch -/

private theorem unlinked_of_load_eq_singleton (h : r.shelf.Sound)
    (hlast : r.shelf.last < Numeral.word64) {c : Report} {i : RowId}
    (hreports : (Batch.load r dc).reports = [c])
    (hslot : r.shelf.slot i = some c) : c.aggregatorId = none := by
  have hc : c ∈ (Batch.load r dc).reports := by simp [hreports]
  have hdc := (Batch.candidate_of_mem hc).collection
  rcases Batch.load_cases h.filed (h.linked dc) hlast with
    hnone | ⟨g, a, -, -, hmem⟩
  · exact hnone hslot hdc
  · -- a report that follows an aggregator is never alone in its batch
    obtain ⟨j, d, hne, hd, hddc, hdlink⟩ :=
      ((hmem hslot hdc).2 ((hmem hslot hdc).1.mp hc)).companion
    have hd' : d ∈ (Batch.load r dc).reports := by
      refine (hmem hd (hddc.trans hdc)).1.mpr ?_
      rw [aggregatorId_of_text hdlink]
      exact Option.some_ne_none _
    rw [hreports, List.mem_singleton] at hd'
    subst hd'
    exact absurd
      (Option.some.inj ((h.filed.id hd).symm.trans (h.filed.id hslot))) hne

private theorem adoption_of_load (h : r.shelf.Sound)
    (hlast : r.shelf.last < Numeral.word64) {first second : Report}
    {rest : List Report} {receipt : Receipt} {stale : List RowId}
    (hreports : (Batch.load r dc).reports = first :: second :: rest)
    (hlive : receipt.status.isFinalized = false)
    (hstale : ∀ id, id ∈ stale ↔ id ≠ r.shelf.last + 1 ∧
      ∃ c, r.shelf.slot id = some c ∧
        c.senderId = (r.shelf.aggregatorFor
          (Batch.load r dc).reports first).senderId) :
    r.shelf.Adoption (Batch.load r dc).reports
      (withReceipt
        (r.shelf.aggregatorFor (Batch.load r dc).reports first) receipt)
      stale := by
  have hfirst : first ∈ (Batch.load r dc).reports := by simp [hreports]
  have hsecond : second ∈ (Batch.load r dc).reports := by simp [hreports]
  obtain ⟨hcollector, hcollection⟩ := collector_aggregatorFor (s := r.shelf)
    hfirst (Batch.candidate_of_mem hfirst).amendment
  have hkeep := keeps_withReceipt
    (r.shelf.aggregatorFor (Batch.load r dc).reports first) receipt
  have hdc :
      (withReceipt (r.shelf.aggregatorFor (Batch.load r dc).reports first)
        receipt).dataCollection = dc := by
    rw [hkeep.dataCollection, hcollection,
      (Batch.candidate_of_mem hfirst).collection]
  have hnodup : (Batch.load r dc).reports.Pairwise fun b c => b.id ≠ c.id :=
    Batch.pairwise_load h.filed
  exact {
    collector := by
      refine hcollector.keeps hkeep (link_withReceipt _ _) ?_
      rw [status_withReceipt]
      exact hlive
    nodup := hnodup
    stored := fun c hc => (Batch.candidate_of_mem hc).stored
    collection := fun c hc =>
      (Batch.candidate_of_mem hc).collection.trans hdc.symm
    visible := fun c hc => (Batch.candidate_of_mem hc).visible
    amendment := fun c hc => (Batch.candidate_of_mem hc).amendment
    complete := by
      intro i c hslot hcdc hlink
      rcases Batch.load_cases h.filed (h.linked dc) hlast with
        hnone | ⟨g, a, -, -, hmem⟩
      · exact absurd (hnone hslot (hcdc.trans hdc)) hlink
      · exact (hmem hslot (hcdc.trans hdc)).1.mpr hlink
    companion := by
      intro c hc
      have hne : first.id ≠ second.id := by
        rw [hreports] at hnodup
        exact (List.pairwise_cons.mp hnodup).1 second List.mem_cons_self
      by_cases heq : c.id = first.id
      · exact ⟨second, hsecond, fun hid => hne (heq ▸ hid.symm)⟩
      · exact ⟨first, hfirst, fun hid => heq hid.symm⟩
    versions := by
      rw [hkeep.senderId]
      exact hstale }

theorem Sends.linked {answered : Receipt → Prop} {s' : Shelf}
    (h : r.shelf.Sound) (hlast : r.shelf.last < Numeral.word64)
    (hanswered : ∀ {receipt}, answered receipt →
      receipt.status.isFinalized = false)
    (hsends : Sends r.shelf (Batch.load r dc).reports answered s')
    (dc' : String) :
    Linked s'.slot dc' := by
  cases hsends with
  | refused => exact h.linked dc'
  | @alone c id receipt hreports hid hanswer =>
      have hc : c ∈ (Batch.load r dc).reports := by simp [hreports]
      obtain ⟨⟨i, hslot⟩, -, hvisible, -, -⟩ := Batch.candidate_of_mem hc
      obtain rfl : i = id := Option.some.inj ((h.filed.id hslot).symm.trans hid)
      exact h.replace hslot hvisible
        (unlinked_of_load_eq_singleton h hlast hreports hslot)
        (keeps_withReceipt c receipt) (link_withReceipt c receipt)
  | @abandoned first second rest hreports =>
      have hfirst : first ∈ (Batch.load r dc).reports := by simp [hreports]
      obtain ⟨hcollector, -⟩ := collector_aggregatorFor (s := r.shelf) hfirst
        (Batch.candidate_of_mem hfirst).amendment
      exact h.store (.inr hcollector) hcollector.unlinked
  | @together first second rest receipt stale hreports hanswer hstale =>
      have hadoption :=
        adoption_of_load h hlast hreports (hanswered hanswer) hstale
      have hlinked := hadoption.linked h dc'
      rwa [Shelf.adopt, status_withReceipt] at hlinked

/-! ## Refreshing a report -/

theorem Refreshes.linked {report : Report} {i : RowId} {s' : Shelf}
    (h : s.Sound) (hlast : s.last < Numeral.word64)
    (hreport : s.slot i = some report)
    (haggregator : report.isAggregator = false)
    (hrefreshes : Refreshes s report s') (dc : String) : Linked s'.slot dc := by
  have hvisible : report.isVisible = true := isVisible_iff.mpr haggregator
  have hleader {g : RowId} {a : Report} (hrow : report.aggregatorRowId = some g)
      (hslot : s.slot g = some a) :
      a.Collector ∧ Leads s.slot report.dataCollection g a := by
    have hlink : report.aggregatorId ≠ none := by
      intro hnone
      rw [aggregatorRowId, hnone] at hrow
      cases hrow
    obtain ⟨g', a', hrow', hcollector, hleads, -⟩ :=
      h.leader hlast hreport hlink
    obtain rfl : g' = g := Option.some.inj (hrow'.symm.trans hrow)
    obtain rfl : a' = a := Option.some.inj (hleads.stored.symm.trans hslot)
    exact ⟨hcollector, hleads⟩
  cases hrefreshes with
  | refused => exact h.linked dc
  | @alone id status hslot hlink =>
      refine h.replace hslot hvisible ?_ (keeps_setStatus report status)
        (text_setStatus_of_ne report status (by decide) (by decide))
      by_contra hlinked
      obtain ⟨g, a, hrow, -, hleads, -⟩ := h.leader hlast hreport hlinked
      rw [hrow, Option.bind_some, hleads.stored] at hlink
      cases hlink
  | @followed g a status followers hrow hslot hlive hnodup hfollowers =>
      obtain ⟨hcollector, hleads⟩ := hleader hrow hslot
      refine h.assign hslot hnodup ?_ (fun _ => hlive) ?_ ?_
      · intro c hc
        obtain ⟨⟨j, hj⟩, hlink⟩ := (hfollowers c).mp hc
        have hne : j ≠ g := by
          rintro rfl
          rw [Shelf.slot_put_self, Option.some.injEq] at hj
          rw [← hj, text_setStatus_of_ne _ _ (by decide) (by decide)] at hlink
          exact hcollector.link_ne j hlink
        exact ⟨j, hne, (Shelf.slot_put_of_ne s _ hne).symm.trans hj⟩
      · exact fun c hc hc' => hc'.link_ne g ((hfollowers c).mp hc).2
      · intro j c g' a' hj hleads' hfollows
        constructor
        · rintro (rfl | hc)
          · have hsame : c = a := Option.some.inj (hj.symm.trans hslot)
            exact absurd (hsame ▸ hcollector.unlinked)
              hfollows.aggregatorId_ne_none
          · exact RowId.text_injective
              (hfollows.link.symm.trans ((hfollowers c).mp hc).2)
        · rintro rfl
          by_cases hne : j = g'
          · exact .inl hne
          · exact .inr ((hfollowers c).mpr
              ⟨⟨j, (Shelf.slot_put_of_ne s _ hne).trans hj⟩, hfollows.link⟩)
  | @released g a status followers versions hrow hslot hnodup hfollowers
    hversions =>
      obtain ⟨hcollector, hleads⟩ := hleader hrow hslot
      rw [← hleads.collection] at hleads
      exact Shelf.Release.linked
        ⟨hcollector, hleads, hnodup, hfollowers, hversions⟩ h dc

end ReportDesk.Report
