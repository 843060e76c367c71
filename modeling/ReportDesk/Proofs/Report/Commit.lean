import ReportDesk.Report.Batch

/-!
# Carrying out a plan

A plan is carried out in two phases: its reports are written in their order, up
to the first that cannot be written, and only then are its rows removed.  What
stands in each place afterwards is read off the plan: the report written last
for that place, or the row that was there before.
-/

namespace ReportDesk.Report

namespace Repository

def Holds (r : Repository) (report : Report) : Prop :=
  ∃ id, report.id = some id ∧ (r.store.get? report.row.table id).isSome = true

inductive Refuses (r : Repository) (report : Report) : Error → Prop where
  | unsaved (hid : report.id = none) :
      Refuses r report (.unsaved report.senderId)
  | notStored {id : RowId} (hid : report.id = some id)
      (habsent : r.store.get? report.row.table id = none) :
      Refuses r report (.store (.notFound report.row.table id))

/--
The row of the last report that belongs in a place; `none` when no report does.
-/
def lastFor? (reports : List Report) (table : String) (id : RowId) :
    Option Row :=
  (reports.reverse.find? fun c => c.row.table == table && c.id == some id).map
    Report.row

/--
The repository after reports were written in their order and rows of its own
table were removed; nothing else is different.
-/
structure Changed (r : Repository) (updates : List Report)
    (deletions : List RowId) (r' : Repository) : Prop where
  schema : r'.schema = r.schema
  lastId : r'.store.lastId = r.store.lastId
  row : ∀ table id, r'.store.get? table id =
    if table = r.table ∧ id ∈ deletions then none
    else (lastFor? updates table id).or (r.store.get? table id)

/-- The same places are taken: no row was added and none was removed. -/
def SamePlaces (r r' : Repository) : Prop :=
  ∀ table id, (r'.store.get? table id).isSome = (r.store.get? table id).isSome

variable {r r₁ r' : Repository}

/-! ## One update -/

private theorem lastFor?_singleton (report : Report) (table : String)
    (id : RowId) :
    lastFor? [report] table id =
      if report.row.table = table ∧ report.id = some id then some report.row
      else none := by
  simp only [lastFor?, List.reverse_singleton, List.find?_singleton]
  split <;> simp_all

private theorem lastFor?_cons (report : Report) (rest : List Report)
    (table : String) (id : RowId) :
    lastFor? (report :: rest) table id =
      (lastFor? rest table id).or (lastFor? [report] table id) := by
  rw [lastFor?, List.reverse_cons, List.find?_append, Option.map_or]
  rfl

theorem update_of_holds {report : Report} (h : r.Holds report) :
    ∃ r', r.update report = .ok r' ∧ r.Changed [report] [] r' ∧
      r.SamePlaces r' := by
  obtain ⟨id, hid, hstored⟩ := h
  have hrow : report.row.id = some id := hid
  refine ⟨{ r with store := r.store.file id report.row }, ?_,
    ⟨rfl, rfl, fun table id' => ?_⟩, fun table id' => ?_⟩
  · simp [update, hid, Store.update_of_get? hrow hstored]
  · change (r.store.file id report.row).get? table id' = _
    rw [Store.get?_file, lastFor?_singleton, hid]
    by_cases hplace : table = report.row.table ∧ id' = id
    · simp [hplace]
    · have hother : ¬(report.row.table = table ∧ some id = some id') := by
        rintro ⟨rfl, heq⟩
        exact hplace ⟨rfl, (Option.some.inj heq).symm⟩
      rw [if_neg hplace, if_neg hother]
      simp
  · change ((r.store.file id report.row).get? table id').isSome = _
    rw [Store.get?_file]
    split
    next hplace => rw [hplace.1, hplace.2, hstored]; rfl
    next => rfl

theorem update_of_not_holds {report : Report} (h : ¬r.Holds report) :
    ∃ error, r.Refuses report error ∧ r.update report = .error error := by
  cases hid : report.id with
  | none => exact ⟨_, .unsaved hid, by simp [update, hid]⟩
  | some id =>
      have hrow : report.row.id = some id := hid
      have habsent : r.store.get? report.row.table id = none := by
        rw [← Option.not_isSome_iff_eq_none]
        exact fun hstored => h ⟨id, hid, hstored⟩
      exact ⟨_,
        .notStored hid
        habsent, by simp [update, hid, Store.update, hrow, habsent]⟩

/-! ## Updates in their order -/

namespace SamePlaces

theorem refl (r : Repository) : r.SamePlaces r := fun _ _ => rfl

theorem trans (h : r.SamePlaces r₁) (h' : r₁.SamePlaces r') : r.SamePlaces r' :=
  fun table id => (h' table id).trans (h table id)

private theorem holds_iff (h : r.SamePlaces r₁) (report : Report) :
    r₁.Holds report ↔ r.Holds report := by
  simp only [Holds, h report.row.table]

theorem refuses (h : r.SamePlaces r₁) {report : Report} {error : Error}
    (hrefuses : r₁.Refuses report error) : r.Refuses report error := by
  cases hrefuses with
  | unsaved hid => exact .unsaved hid
  | notStored hid habsent =>
      refine .notStored hid ?_
      rw [← Option.isNone_iff_eq_none, ← Option.not_isSome, ← h, habsent]
      rfl

end SamePlaces

namespace Changed

theorem refl (r : Repository) : r.Changed [] [] r :=
  ⟨rfl, rfl, fun _ _ => by simp [lastFor?]⟩

theorem cons {report : Report} {rest : List Report}
    (h : r.Changed [report] [] r₁)
    (h' : r₁.Changed rest [] r') : r.Changed (report :: rest) [] r' := by
  refine ⟨h'.schema.trans h.schema, h'.lastId.trans h.lastId,
    fun table id => ?_⟩
  rw [h'.row, h.row, lastFor?_cons report rest]
  simp [Option.or_assoc]

theorem delete {updates : List Report} {deletions : List RowId}
    (h : r.Changed updates deletions r') (id : RowId) :
    r.Changed updates (deletions ++ [id]) (r'.delete id).2 := by
  have htable : r'.table = r.table := congrArg Schema.sheetName h.schema
  have hlast : (r'.store.delete r'.table id).2.lastId = r'.store.lastId := by
    unfold Store.delete
    split <;> rfl
  refine ⟨h.schema, hlast.trans h.lastId, fun table id' => ?_⟩
  change (r'.store.delete r'.table id).2.get? table id' = _
  rw [Store.get?_delete, h.row, htable]
  simp only [List.mem_append, List.mem_singleton, and_or_left]
  by_cases hplace : table = r.table ∧ id' = id
  · simp [hplace]
  · simp [hplace]

end Changed

end Repository

namespace FanOut

open Repository

/--
The updates are written up to the first report that is not held, or to the
end; the places taken are the same all along, so that what is held is told by
the repository at the start.
-/
theorem updateAll_stops_or_completes (updates : List Report) (r : Repository) :
    (∃ before failed after error r', updates = before ++ failed :: after ∧
        (∀ c ∈ before, r.Holds c) ∧ r.Refuses failed error ∧
        updateAll updates r = (.error error, r') ∧ r.Changed before [] r' ∧
          r.SamePlaces r') ∨
      ((∀ c ∈ updates, r.Holds c) ∧
        ∃ r', updateAll updates r = (.ok (), r') ∧
          r.Changed updates [] r') := by
  induction updates generalizing r with
  | nil => exact .inr ⟨fun _ hc => absurd hc List.not_mem_nil, r, rfl, .refl r⟩
  | cons report rest ih =>
      by_cases hholds : r.Holds report
      · obtain ⟨r₁, hupdate, hchanged, hplaces⟩ := update_of_holds hholds
        rw [updateAll, hupdate]
        rcases ih r₁ with
          ⟨before, failed, after, error, r', hrest, hbefore, hrefuses, hrun,
            hchanged', hplaces'⟩ |
          ⟨hrest, r', hrun, hchanged'⟩
        · refine .inl ⟨report :: before, failed, after, error,
            r', by rw [hrest]; rfl, ?_, hplaces.refuses hrefuses, hrun,
            hchanged.cons hchanged', hplaces.trans hplaces'⟩
          exact List.forall_mem_cons.mpr
            ⟨hholds, fun c hc => (hplaces.holds_iff c).mp (hbefore c hc)⟩
        · refine .inr ⟨?_, r', hrun, hchanged.cons hchanged'⟩
          exact List.forall_mem_cons.mpr
            ⟨hholds, fun c hc => (hplaces.holds_iff c).mp (hrest c hc)⟩
      · obtain ⟨error, hrefuses, hupdate⟩ := update_of_not_holds hholds
        refine .inl ⟨[], report, rest, error, r, rfl,
          fun _ hc => absurd hc List.not_mem_nil, hrefuses, ?_,
          .refl r, .refl r⟩
        rw [updateAll, hupdate]

private theorem changed_deleteAll {r r' : Repository} {updates : List Report}
    {deletions : List RowId} (h : r.Changed updates deletions r')
    (ids : List RowId) :
    r.Changed updates (deletions ++ ids) (deleteAll ids r') := by
  induction ids generalizing deletions r' with
  | nil => rwa [List.append_nil]
  | cons id rest ih =>
      have hrest := ih (h.delete id)
      rwa [List.append_assoc] at hrest

/--
A plan fails on its first report that has no id or is not stored: the reports
before it are written in their order, and no row is removed.  A plan without
such a report is carried out in full and answers its reports: all of them are
written in their order, then its rows are gone, and every other row is as it
was.
-/
theorem commit_stops_or_completes (plan : FanOut) (r : Repository) :
    (∃ before failed after error r', plan.updates = before ++ failed :: after ∧
        (∀ c ∈ before, r.Holds c) ∧ r.Refuses failed error ∧
        plan.commit r = (.error error, r') ∧ r.Changed before [] r' ∧
          r.SamePlaces r') ∨
      ((∀ c ∈ plan.updates, r.Holds c) ∧
        ∃ r', plan.commit r = (.ok plan.updates, r') ∧
          r.Changed plan.updates plan.deletions r') := by
  rcases updateAll_stops_or_completes plan.updates r with
    ⟨before, failed, after, error, r', hsplit, hbefore, hrefuses, hrun,
      hchanged, hplaces⟩ |
    ⟨hholds, r', hrun, hchanged⟩
  · refine .inl ⟨before, failed, after, error, r', hsplit, hbefore, hrefuses,
      ?_, hchanged, hplaces⟩
    rw [commit, hrun]
  · refine .inr ⟨hholds, deleteAll plan.deletions r', ?_,
      changed_deleteAll hchanged plan.deletions⟩
    rw [commit, hrun]

end FanOut

end ReportDesk.Report
