import ReportDesk.Proofs.Report.Sending

/-!
# Reports that take a status

An answer of the service spreads in two moves.  The report that it is about is
replaced, and then a plan for the other reports is carried out.  Each of them
takes the status once, so that the status it had before is not lost.
-/

namespace ReportDesk.Report

/-! ## One report -/

/--
A report before and after it took a status.  Apart from the status and the one
before it, only the cells of the listed columns may be different.
-/
structure Restated (status : Status) (columns : List String) (c c' : Report) :
    Prop where
  id : c'.id = c.id
  schema : c'.row.schema = c.row.schema
  status : c'.status = status
  previousStatus : c'.previousStatus = some c.status
  cells : ∀ column,
      column ∉ Columns.status :: Columns.previousStatus :: columns →
    c'.row.cell? column = c.row.cell? column

theorem restated_setStatus (status : Status) (c : Report) :
    Restated status [] c (c.setStatus status) where
  id := rfl
  schema := rfl
  status := status_setStatus c status
  previousStatus := previousStatus_setStatus c status
  cells := fun column hcolumn => by
    simp only [List.mem_cons, List.not_mem_nil, or_false, not_or] at hcolumn
    rw [setStatus, cell?_setText_of_ne _ _ hcolumn.1,
      cell?_setText_of_ne _ _ hcolumn.2]

theorem Restated.setAggregatorId {status : Status} {c c' : Report}
    (h : Restated status [] c c') (id : Option String) :
    Restated status [Columns.aggregatorId] c (c'.setAggregatorId id) where
  id := (keeps_setAggregatorId c' id).id.trans h.id
  schema := (schema_setAggregatorId c' id).trans h.schema
  status := (status_setAggregatorId c' id).trans h.status
  previousStatus :=
    (previousStatus_setAggregatorId c' id).trans h.previousStatus
  cells := fun column hcolumn => by
    simp only [List.mem_cons, List.not_mem_nil, or_false, not_or] at hcolumn
    rw [cell?_setAggregatorId_of_ne c' id hcolumn.2.2]
    exact h.cells column (by simp [hcolumn])

/-! ## The slots -/

/-- What becomes of a slot when the marked reports take a status. -/
inductive Reassigned (status : Status) (marked : Report → Prop) :
    Option Report → Option Report → Prop where
  | free : Reassigned status marked none none
  | restated {c c' : Report} (hmarked : marked c)
      (hrestated : Restated status [] c c') :
      Reassigned status marked (some c) (some c')
  | kept {c : Report} (hmarked : ¬ marked c) :
      Reassigned status marked (some c) (some c)

theorem reassigned_map {status : Status} {marked : Report → Prop}
    {p : Report → Prop}
    [DecidablePred p] {slot : Option Report}
    (h : ∀ c, slot = some c → (p c ↔ marked c)) :
    Reassigned status marked slot
      (slot.map fun c => if p c then c.setStatus status else c) := by
  cases slot with
  | none => exact .free
  | some c =>
      rw [Option.map_some]
      split
      next hp => exact .restated ((h c rfl).mp hp) (restated_setStatus status c)
      next hp => exact .kept fun hmarked => hp ((h c rfl).mpr hmarked)

theorem Shelf.slot_assign {s : Shelf} {g : RowId} {a : Report}
    {others : List Report} {status : Status} (hfiled : s.Filed)
    (hslot : s.slot g = some a)
    (hnodup : others.Pairwise fun b c => b.id ≠ c.id)
    (hothers : ∀ c ∈ others, ∃ i, s.slot i = some c) (i : RowId) :
    ((s.put g (a.setStatus status)).write
        (others.map fun c => c.setStatus status)).slot i =
      (s.slot i).map fun c => if i = g ∨ c ∈ others then c.setStatus status
        else c := by
  have hid (c : Report) : (c.setStatus status).id = c.id :=
    (keeps_setStatus c status).id
  cases hi : s.slot i with
  | none =>
      have hne : i ≠ g := by
        rintro rfl
        rw [hslot] at hi
        cases hi
      rw [slot_write_map_of_none hfiled hothers hid hi,
        slot_put_of_ne _ _ hne, hi]
      rfl
  | some c =>
      rw [slot_write_map hfiled hnodup hothers hid hi, Option.map_some]
      by_cases hg : i = g
      · subst hg
        obtain rfl : c = a := Option.some.inj (hi.symm.trans hslot)
        simp
      · rw [slot_put_of_ne _ _ hg, hi]
        by_cases hc : c ∈ others
        · simp [hc]
        · simp [hc, hg]

/-! ## The two moves -/

theorem Repository.exists_update_commit {r : Repository} {g : RowId}
    {a a' : Report} (plan : Repository → FanOut) (hfiled : r.shelf.Filed)
    (hslot : r.shelf.slot g = some a) (hkeep : a.Keeps a')
    (hplan : ∀ r₁ : Repository, r₁.shelf = r.shelf.put g a' →
      ∀ c ∈ (plan r₁).updates, r₁.shelf.Stores c) :
    ∃ r₁ r₂, r.update a' = .ok r₁ ∧ r₁.shelf = r.shelf.put g a' ∧
      (plan r₁).commit r₁ = (.ok (plan r₁).updates, r₂) ∧
      r₂.shelf = (r₁.shelf.write (plan r₁).updates).dropAll
        (plan r₁).deletions ∧
      r.SameElsewhere r₂ := by
  obtain ⟨r₁, hupdate, hshelf⟩ :=
    shelf_update (hkeep.id.trans (hfiled.id hslot))
    ((hfiled.stores hslot).keeps hkeep)
  have hstores := hplan r₁ hshelf
  obtain ⟨r₂, hcommit, hshelf'⟩ := FanOut.shelf_commit hstores
  have hfirst : r.SameElsewhere r₁ :=
    .update (hkeep.table.trans (hfiled.table hslot)) hupdate
  refine ⟨r₁, r₂, hupdate, hshelf, hcommit, hshelf',
    hfirst.trans (.commit (fun c hc => ?_) hcommit)⟩
  obtain ⟨-, -, htable, -⟩ := hstores c hc
  exact htable

end ReportDesk.Report
