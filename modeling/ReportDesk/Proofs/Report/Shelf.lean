import Mathlib.Logic.Function.Basic
import ReportDesk.Report.Batch

/-!
# The report table as a shelf

What a repository holds is one slot for each row id.  Every operation of a
repository is an operation on the slots, so that the life cycle can be followed
without looking into the store.
-/

namespace ReportDesk.Report

/-- The slots of a report table, and the greatest row id used so far. -/
structure Shelf where
  schema : Schema
  last : RowId
  slot : RowId → Option Report

def Repository.shelf (r : Repository) : Shelf :=
  ⟨r.schema, r.store.lastId, r.get?⟩

namespace Shelf

def put (s : Shelf) (id : RowId) (report : Report) : Shelf :=
  { s with slot := Function.update s.slot id (some report) }

def drop (s : Shelf) (id : RowId) : Shelf :=
  { s with slot := Function.update s.slot id none }

def count (s : Shelf) : Shelf :=
  { s with last := s.last + 1 }

def write : List Report → Shelf → Shelf
  | [], s => s
  | report :: rest, s =>
    write rest ((report.id.elim s) fun id => s.put id report)

def dropAll (ids : List RowId) (s : Shelf) : Shelf :=
  { s with slot := fun id => if id ∈ ids then none else s.slot id }

/-- Every report stands in its own slot, under an id that has been used. -/
structure Filed (s : Shelf) : Prop where
  id : ∀ {id report}, s.slot id = some report → report.id = some id
  table : ∀ {id report}, s.slot id = some report →
    report.row.table = s.schema.sheetName
  le_last : ∀ {id report}, s.slot id = some report → id ≤ s.last

def Stores (s : Shelf) (report : Report) : Prop :=
  ∃ id, report.id = some id ∧ report.row.table = s.schema.sheetName ∧
    (s.slot id).isSome = true

/-! ## Slots after each operation -/

variable (s : Shelf)

@[simp] theorem slot_put_self (id : RowId) (report : Report) :
    (s.put id report).slot id = some report := by
  simp [put]

theorem slot_put_of_ne {id id' : RowId} (report : Report) (h : id' ≠ id) :
    (s.put id report).slot id' = s.slot id' := by
  simp [put, Function.update_of_ne h]

theorem put_put (id : RowId) (report report' : Report) :
    (s.put id report).put id report' = s.put id report' := by
  unfold put
  simp

theorem slot_dropAll (ids : List RowId) (id : RowId) :
    (s.dropAll ids).slot id = if id ∈ ids then none else s.slot id := rfl

@[simp] theorem dropAll_nil : s.dropAll [] = s := by
  unfold dropAll
  simp

private theorem dropAll_cons (id : RowId) (ids : List RowId) :
    s.dropAll (id :: ids) = (s.drop id).dropAll ids := by
  unfold dropAll drop
  congr 1
  funext id'
  by_cases h : id' = id
  · simp [h]
  · simp [h]

@[simp] theorem schema_write (reports : List Report) :
    (s.write reports).schema = s.schema := by
  induction reports generalizing s with
  | nil => rfl
  | cons report rest ih =>
      rw [write, ih]
      cases report.id <;> rfl

@[simp] theorem last_write (reports : List Report) :
    (s.write reports).last = s.last := by
  induction reports generalizing s with
  | nil => rfl
  | cons report rest ih =>
      rw [write, ih]
      cases report.id <;> rfl

variable {s}

theorem slot_write_of_forall_ne {reports : List Report} {id : RowId}
    (h : ∀ report ∈ reports, report.id ≠ some id) :
    (s.write reports).slot id = s.slot id := by
  induction reports generalizing s with
  | nil => rfl
  | cons report rest ih =>
      rw [List.forall_mem_cons] at h
      rw [write, ih h.2]
      cases hid : report.id with
      | none => rfl
      | some id' =>
          have hne : id ≠ id' := fun heq => h.1 (heq ▸ hid)
          exact slot_put_of_ne s report hne

private theorem slot_write_of_mem {reports : List Report} {report : Report}
    {id : RowId} (hnodup : reports.Pairwise fun a b => a.id ≠ b.id)
    (hmem : report ∈ reports)
    (hid : report.id = some id) : (s.write reports).slot id = some report := by
  induction reports generalizing s with
  | nil => exact absurd hmem List.not_mem_nil
  | cons first rest ih =>
      obtain ⟨hfirst, hrest⟩ := List.pairwise_cons.mp hnodup
      rw [write]
      rcases List.mem_cons.mp hmem with rfl | hmem
      · -- no later report has the same id, so the first write is the one that
        -- stays
        rw [slot_write_of_forall_ne fun other hother heq =>
          hfirst other hother (by rw [hid, heq]), hid]
        exact slot_put_self s id report
      · exact ih hrest hmem

theorem Stores.put {report other : Report} {id : RowId} (h : s.Stores report) :
    (s.put id other).Stores report := by
  obtain ⟨id', hid, htable, hsome⟩ := h
  refine ⟨id', hid, htable, ?_⟩
  by_cases heq : id' = id
  · simp [heq]
  · rwa [slot_put_of_ne s other heq]

/-! ## Filing -/

namespace Filed

theorem stores (h : s.Filed) {id : RowId} {report : Report}
    (hslot : s.slot id = some report) :
    s.Stores report :=
  ⟨id, h.id hslot, h.table hslot, by rw [hslot]; rfl⟩

theorem slot_next (h : s.Filed) : s.slot (s.last + 1) = none := by
  cases hslot : s.slot (s.last + 1) with
  | none => rfl
  | some report => exact absurd (h.le_last hslot) (Nat.not_succ_le_self s.last)

theorem put (h : s.Filed) {report : Report} {id : RowId}
    (hid : report.id = some id) (htable : report.row.table = s.schema.sheetName)
    (hle : id ≤ s.last) :
    (s.put id report).Filed := by
  constructor
  all_goals
    intro id' report' hslot
    by_cases heq : id' = id
    · subst heq
      rw [slot_put_self, Option.some.injEq] at hslot
      subst hslot
      assumption
    · rw [slot_put_of_ne s report heq] at hslot
      first
      | exact h.id hslot
      | exact h.table hslot
      | exact h.le_last hslot

theorem count (h : s.Filed) : s.count.Filed where
  id := h.id
  table := h.table
  le_last := fun hslot => Nat.le_succ_of_le (h.le_last hslot)

theorem dropAll (h : s.Filed) (ids : List RowId) : (s.dropAll ids).Filed := by
  have hslot {id : RowId} {report : Report}
      (hs : (s.dropAll ids).slot id = some report) :
      s.slot id = some report := by
    rw [slot_dropAll] at hs
    split at hs
    · cases hs
    · exact hs
  exact ⟨fun hs => h.id (hslot hs), fun hs => h.table (hslot hs),
    fun hs => h.le_last (hslot hs)⟩

theorem write (h : s.Filed) {reports : List Report}
    (hstores : ∀ r ∈ reports, s.Stores r) :
    (s.write reports).Filed := by
  induction reports generalizing s with
  | nil => exact h
  | cons report rest ih =>
      rw [List.forall_mem_cons] at hstores
      obtain ⟨⟨id, hid, htable, hsome⟩, hrest⟩ := hstores
      obtain ⟨old, hold⟩ := Option.isSome_iff_exists.mp hsome
      rw [Shelf.write, hid]
      exact ih (h.put hid htable (h.le_last hold)) fun r hr => (hrest r hr).put

end Filed

theorem slot_write_map {s' : Shelf} (hfiled : s.Filed) {reports : List Report}
    (hnodup : reports.Pairwise fun a b => a.id ≠ b.id)
    (hstored : ∀ c ∈ reports, ∃ id, s.slot id = some c) {f : Report → Report}
    (hf : ∀ c, (f c).id = c.id) {id : RowId} {c : Report}
    (hslot : s.slot id = some c) :
    (s'.write (reports.map f)).slot id = if c ∈ reports then some (f c)
      else s'.slot id := by
  split
  next hmem =>
    refine slot_write_of_mem (List.pairwise_map.mpr ?_)
      (List.mem_map_of_mem hmem) ((hf c).trans (hfiled.id hslot))
    simpa only [hf] using hnodup
  next hmem =>
    refine slot_write_of_forall_ne fun other hother hid => ?_
    obtain ⟨c', hc', rfl⟩ := List.mem_map.mp hother
    obtain ⟨id', hslot'⟩ := hstored c' hc'
    have hsame : id' = id :=
      Option.some.inj ((hfiled.id hslot').symm.trans ((hf c').symm.trans hid))
    rw [hsame, hslot, Option.some.injEq] at hslot'
    exact hmem (hslot' ▸ hc')

theorem slot_write_map_of_none {s' : Shelf} (hfiled : s.Filed)
    {reports : List Report} (hstored : ∀ c ∈ reports, ∃ id, s.slot id = some c)
    {f : Report → Report} (hf : ∀ c, (f c).id = c.id) {id : RowId}
    (hslot : s.slot id = none) :
    (s'.write (reports.map f)).slot id = s'.slot id := by
  refine slot_write_of_forall_ne fun other hother hid => ?_
  obtain ⟨c, hc, rfl⟩ := List.mem_map.mp hother
  obtain ⟨id', hslot'⟩ := hstored c hc
  have hsame : id' = id :=
    Option.some.inj ((hfiled.id hslot').symm.trans ((hf c).symm.trans hid))
  rw [hsame, hslot] at hslot'
  cases hslot'

end Shelf

/-! ## Operations of a repository -/

def withId (report : Report) (id : RowId) : Report :=
  ⟨{ report.row with id := some id }⟩

namespace Repository

variable {r : Repository}

theorem shelf_file (r : Repository) (id : RowId) (report : Report) :
    { r with store := r.store.file id report.row : Repository }.shelf =
      if report.row.table = r.table then r.shelf.put id report
      else r.shelf := by
  split
  next htable =>
    unfold shelf Shelf.put
    congr 1
    funext id'
    change ((r.store.file id report.row).get? r.table id').map Report.mk = _
    by_cases heq : id' = id
    · subst heq
      have hfile := Store.get?_file_self r.store id' report.row
      rw [htable] at hfile
      simp [hfile]
    · rw [Function.update_of_ne heq,
        Store.get?_file_of_ne r.store fun h => heq h.2]
      rfl
  next htable =>
    unfold shelf
    congr 1
    funext id'
    change ((r.store.file id report.row).get? r.table id').map Report.mk = _
    rw [Store.get?_file_of_ne r.store fun h => htable h.1.symm]
    rfl

theorem shelf_update {report : Report} {id : RowId} (hid : report.id = some id)
    (hstores : r.shelf.Stores report) :
    ∃ r', r.update report = .ok r' ∧ r'.shelf = r.shelf.put id report := by
  obtain ⟨id', hid', htable, hsome⟩ := hstores
  rw [hid, Option.some.injEq] at hid'
  subst hid'
  have hrow : report.row.id = some id := hid
  have hget : (r.store.get? report.row.table id).isSome = true := by
    rw [htable]
    simpa [shelf, get?, table] using hsome
  refine ⟨{ r with store := r.store.file id report.row }, ?_, ?_⟩
  · simp [update, hid, Store.update_of_get? hrow hget]
  · rw [shelf_file, if_pos (show report.row.table = r.table from htable)]

private theorem shelf_delete (r : Repository) (id : RowId) :
    (r.delete id).2.shelf = r.shelf.drop id := by
  have hlast : (r.store.delete r.table id).2.lastId = r.store.lastId := by
    unfold Store.delete
    split <;> rfl
  unfold shelf Shelf.drop
  congr 1
  funext id'
  change ((r.store.delete r.table id).2.get? r.table id').map Report.mk = _
  rw [Store.get?_delete]
  by_cases heq : id' = id
  · simp [heq]
  · simp [heq, get?]

theorem shelf_insert (r : Repository) {report : Report}
    (hid : report.id = none) :
    (r.insert report).1 = report.withId (r.shelf.last + 1) ∧
      (r.insert report).2.2.shelf =
        if report.row.table = r.table then
          r.shelf.count.put (r.shelf.last + 1)
          (report.withId (r.shelf.last + 1))
        else r.shelf.count := by
  have hrow : report.row.id = none := hid
  refine ⟨by simp [insert, Store.insert, hrow, withId, shelf], ?_⟩
  have hinsert : (r.insert report).2.2 =
      ⟨r.schema,
        Store.file ⟨r.store.tables, r.store.lastId + 1⟩ (r.store.lastId + 1)
        (report.withId (r.store.lastId + 1)).row⟩ := by
    simp [insert, Store.insert, hrow, withId]
  rw [hinsert]
  exact shelf_file ⟨r.schema, ⟨r.store.tables, r.store.lastId + 1⟩⟩ _ _

theorem mem_all {report : Report} :
    report ∈ r.all ↔ ∃ id, r.shelf.slot id = some report := by
  unfold all Store.all SortedMap.values shelf get? Store.get?
  simp only [List.mem_map, Option.map_eq_some_iff, SortedMap.get?_eq_some_iff]
  constructor
  · rintro ⟨row, ⟨⟨id, row'⟩, hmem, rfl⟩, rfl⟩
    exact ⟨id, row', hmem, rfl⟩
  · rintro ⟨id, row, hmem, rfl⟩
    exact ⟨row, ⟨(id, row), hmem, rfl⟩, rfl⟩

theorem pairwise_all (h : r.shelf.Filed) :
    r.all.Pairwise fun a b => ∀ id id', a.id = some id → b.id = some id' →
      id < id' := by
  unfold all Store.all SortedMap.values
  rw [List.pairwise_map, List.pairwise_map]
  refine (r.store.rows r.table).sorted.imp_of_mem ?_
  intro a b ha hb hlt id id' hid hid'
  have hslot {entry : RowId × Row}
      (hmem : entry ∈ (r.store.rows r.table).entries) :
      (Report.mk entry.2).id = some entry.1 := by
    refine h.id ?_
    change ((r.store.rows r.table).get? entry.1).map Report.mk = _
    rw [(SortedMap.get?_eq_some_iff _ _ _).mpr hmem]
    rfl
  rw [hslot ha, Option.some.injEq] at hid
  rw [hslot hb, Option.some.injEq] at hid'
  subst hid hid'
  exact Nat.compare_eq_lt.mp hlt

theorem nodup_all (h : r.shelf.Filed) :
    r.all.Pairwise fun a b => a.id ≠ b.id := by
  refine (pairwise_all h).imp_of_mem ?_
  intro a b ha _ hlt heq
  obtain ⟨id, hslot⟩ := mem_all.mp ha
  have hid := h.id hslot
  exact Nat.lt_irrefl id (hlt id id hid (heq ▸ hid))

end Repository

/-! ## Fan-outs -/

namespace FanOut

variable {r : Repository}

private theorem shelf_updateAll {reports : List Report}
    (h : ∀ report ∈ reports, r.shelf.Stores report) :
    ∃ r', updateAll reports r = (.ok (), r') ∧
      r'.shelf = r.shelf.write reports := by
  induction reports generalizing r with
  | nil => exact ⟨r, rfl, rfl⟩
  | cons report rest ih =>
      rw [List.forall_mem_cons] at h
      obtain ⟨id, hid, _⟩ := h.1
      obtain ⟨r', hupdate, hshelf⟩ := Repository.shelf_update hid h.1
      have hlater : ∀ other ∈ rest, r'.shelf.Stores other := by
        intro other hother
        rw [hshelf]
        exact (h.2 other hother).put
      obtain ⟨r'', hrest, hshelf'⟩ := ih hlater
      refine ⟨r'', ?_, ?_⟩
      · rw [updateAll, hupdate]
        exact hrest
      · rw [hshelf', hshelf, Shelf.write, hid]
        rfl

theorem shelf_deleteAll (ids : List RowId) (r : Repository) :
    (deleteAll ids r).shelf = r.shelf.dropAll ids := by
  induction ids generalizing r with
  | nil =>
      rw [Shelf.dropAll_nil]
      rfl
  | cons id rest ih =>
      rw [Shelf.dropAll_cons, ← Repository.shelf_delete]
      exact ih (r.delete id).2

theorem shelf_commit {plan : FanOut}
    (h : ∀ report ∈ plan.updates, r.shelf.Stores report) :
    ∃ r', plan.commit r = (.ok plan.updates, r') ∧
      r'.shelf = (r.shelf.write plan.updates).dropAll plan.deletions := by
  obtain ⟨r', hupdate, hshelf⟩ := shelf_updateAll h
  refine ⟨deleteAll plan.deletions r', ?_, ?_⟩
  · rw [commit, hupdate]
  · rw [shelf_deleteAll, hshelf]

end FanOut

/-! ## The other tables -/

/--
The repository afterwards, with the same schema and the same rows in all other
tables.
-/
structure Repository.SameElsewhere (r r' : Repository) : Prop where
  schema : r'.schema = r.schema
  rows : ∀ table ≠ r.table, r'.store.rows table = r.store.rows table

namespace Repository.SameElsewhere

variable {r r' r'' : Repository}

theorem refl (r : Repository) : r.SameElsewhere r := ⟨rfl, fun _ _ => rfl⟩

theorem trans (h : r.SameElsewhere r') (h' : r'.SameElsewhere r'') :
    r.SameElsewhere r'' := by
  refine ⟨h'.schema.trans h.schema, fun table hne => ?_⟩
  have hne' : table ≠ r'.table := by rwa [Repository.table, h.schema]
  rw [h'.rows table hne', h.rows table hne]

theorem insert {report : Report} (hid : report.id = none)
    (htable : report.row.table = r.table) :
    r.SameElsewhere (r.insert report).2.2 := by
  have hrow : report.row.id = none := hid
  refine ⟨rfl, fun table hne => ?_⟩
  change (r.store.insert report.row).2.2.rows table = _
  simp only [Store.insert, hrow]
  exact Store.rows_file_of_ne _ (htable.symm ▸ hne)

theorem update {report : Report} (htable : report.row.table = r.table)
    (h : r.update report = .ok r') : r.SameElsewhere r' := by
  unfold Repository.update at h
  split at h
  · cases h
  · split at h
    next store hstore =>
      cases h
      refine ⟨rfl, fun table hne => ?_⟩
      unfold Store.update at hstore
      split at hstore
      · cases hstore
      · split at hstore
        · cases hstore
          exact Store.rows_file_of_ne _ (htable.symm ▸ hne)
        · cases hstore
    · cases h

theorem updateAll {reports : List Report}
    (htable : ∀ c ∈ reports, c.row.table = r.table) :
    r.SameElsewhere (FanOut.updateAll reports r).2 := by
  induction reports generalizing r with
  | nil => exact refl r
  | cons report rest ih =>
      rw [List.forall_mem_cons] at htable
      rw [FanOut.updateAll]
      split
      next r' hupdate =>
        have hfirst := update htable.1 hupdate
        refine hfirst.trans (ih fun c hc => ?_)
        rw [htable.2 c hc, Repository.table, Repository.table, hfirst.schema]
      next => exact refl r

theorem deleteAll (ids : List RowId) (r : Repository) :
    r.SameElsewhere (FanOut.deleteAll ids r) := by
  induction ids generalizing r with
  | nil => exact refl r
  | cons id rest ih =>
      have hfirst : r.SameElsewhere (r.delete id).2 :=
        ⟨rfl, fun table hne => Store.rows_delete_of_ne _ id hne⟩
      exact hfirst.trans (ih (r.delete id).2)

theorem commit {plan : FanOut}
    (htable : ∀ c ∈ plan.updates, c.row.table = r.table)
    {result : Except Error (List Report)} (h : plan.commit r = (result, r')) :
    r.SameElsewhere r' := by
  have hupdates := updateAll htable
  unfold FanOut.commit at h
  split at h
  next later hall =>
    rw [hall] at hupdates
    rw [← (Prod.mk.inj h).2]
    exact hupdates.trans (deleteAll _ _)
  next error later hall =>
    rw [hall] at hupdates
    rw [← (Prod.mk.inj h).2]
    exact hupdates

end Repository.SameElsewhere

end ReportDesk.Report
