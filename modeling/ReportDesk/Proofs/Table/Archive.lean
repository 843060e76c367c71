import Mathlib.Data.Finmap
import Mathlib.Data.Finset.Sort
import ReportDesk.Proofs.Table.Keys
import ReportDesk.Table.Store

/-!
# A store is a finite map

Through any run of insertions, updates and removals a store answers as a finite
map from tables and ids to rows would, and its lists are views of that map.  An
id that the store assigns is greater than all ids that it has seen before.
-/

namespace ReportDesk

/-! ## Archives -/

abbrev Filing := Finmap fun _ : String × RowId => Row

namespace Filing

def ids (rows : Filing) (table : String) : Finset RowId :=
  (rows.keys.filter fun key => key.1 = table).image Prod.snd

def listed (rows : Filing) (table : String) : List Row :=
  (rows.ids table).sort.filterMap fun id => rows.lookup (table, id)

private theorem mem_ids {rows : Filing} {table : String} {id : RowId} :
    id ∈ rows.ids table ↔ (rows.lookup (table, id)).isSome = true := by
  simp [ids, Finmap.mem_keys, Finmap.lookup_isSome]

end Filing

/--
The rows, and every id that a row was inserted under, also of rows that are
gone.
-/
structure Archive where
  rows : Filing
  used : List RowId

namespace Store

inductive Operation where
  | insert (row : Row)
  | update (row : Row)
  | delete (table : String) (id : RowId)

inductive Answer where
  | inserted (row : Row) (id : RowId)
  | updated
  | refused (error : StoreError)
  | deleted (removed : Bool)
deriving DecidableEq

def perform (s : Store) : Operation → Answer × Store
  | .insert row =>
      let (row, id, later) := s.insert row
      (.inserted row id, later)
  | .update row =>
      match s.update row with
      | .ok later => (.updated, later)
      | .error error => (.refused error, s)
  | .delete table id =>
      let (removed, later) := s.delete table id
      (.deleted removed, later)

def run (s : Store) : List Operation → List Answer × Store
  | [] => ([], s)
  | operation :: rest =>
      let (answer, later) := s.perform operation
      let (answers, final) := later.run rest
      (answer :: answers, final)

end Store

namespace Archive

open Store (Operation Answer)

def empty : Archive := ⟨∅, []⟩

/-- What an archive may answer to an operation, and what it holds afterwards. -/
inductive Step : Archive → Operation → Answer → Archive → Prop
  | insert {a : Archive} {row : Row} {id : RowId} (hid : row.id = some id) :
      Step a (.insert row) (.inserted row id)
        ⟨a.rows.insert (row.table, id) row, id :: a.used⟩
  | assign {a : Archive} {row : Row} {id : RowId} (hid : row.id = none)
      (hgreater : ∀ used ∈ a.used, used < id)
      (hfree : ∀ table, (table, id) ∉ a.rows) :
      Step a (.insert row) (.inserted { row with id := some id } id)
        ⟨a.rows.insert (row.table, id) { row with id := some id }, id :: a.used⟩
  | update {a : Archive} {row : Row} {id : RowId} (hid : row.id = some id)
      (hstored : (row.table, id) ∈ a.rows) :
      Step a (.update row) .updated ⟨a.rows.insert (row.table, id) row, a.used⟩
  | missingId {a : Archive} {row : Row} (hid : row.id = none) :
      Step a (.update row) (.refused (.missingId row.table)) a
  | notFound {a : Archive} {row : Row} {id : RowId} (hid : row.id = some id)
      (habsent : (row.table, id) ∉ a.rows) :
      Step a (.update row) (.refused (.notFound row.table id)) a
  | delete {a : Archive} {table : String} {id : RowId}
      (hstored : (table, id) ∈ a.rows) :
      Step a (.delete table id) (.deleted true)
        ⟨a.rows.erase (table, id), a.used⟩
  | absent {a : Archive} {table : String} {id : RowId}
      (habsent : (table, id) ∉ a.rows) :
      Step a (.delete table id) (.deleted false) a

inductive Run : Archive → List Operation → List Answer → Archive → Prop
  | nil {a : Archive} : Run a [] [] a
  | cons {a later final : Archive} {operation : Operation} {answer : Answer}
      {operations : List Operation} {answers : List Answer}
      (hstep : Step a operation answer later)
      (hrun : Run later operations answers final) :
      Run a (operation :: operations) (answer :: answers) final

end Archive

namespace Store

/-- Whatever the store is asked, it answers from the rows of the map. -/
structure Shows (s : Store) (rows : Filing) : Prop where
  get? : ∀ table id, s.get? table id = rows.lookup (table, id)
  all : ∀ table, s.all table = rows.listed table
  withCode : ∀ table field code,
    s.withCode table field code = (rows.listed table).filter fun row =>
      row.code field == code
  count : ∀ table, s.count table = (rows.ids table).card
  filed : ∀ table id row, rows.lookup (table, id) = some row →
    row.table = table ∧ row.id = some id

/-! ## What every operation keeps -/

structure Agrees (s : Store) (a : Archive) : Prop where
  lookup : ∀ table id, a.rows.lookup (table, id) = s.get? table id
  filed : ∀ {table id row}, s.get? table id = some row →
    row.table = table ∧ row.id = some id
  stored_le : ∀ {table id row}, s.get? table id = some row → id ≤ s.lastId
  used_le : ∀ id ∈ a.used, id ≤ s.lastId

variable {s : Store} {a : Archive}

theorem agrees_empty : Agrees .empty .empty := by
  refine ⟨?_, ?_, ?_, ?_⟩
  · intro table id
    simp [Archive.empty]
  · intro table id row h
    simp at h
  · intro table id row h
    simp at h
  · intro id h
    simp [Archive.empty] at h

theorem Agrees.mem_iff (h : s.Agrees a) {table : String} {id : RowId} :
    (table, id) ∈ a.rows ↔ (s.get? table id).isSome = true := by
  rw [← h.lookup, Finmap.lookup_isSome]

theorem Agrees.file (h : s.Agrees a) {row : Row} {id last : RowId}
    {used : List RowId} (hid : row.id = some id) (hle : id ≤ last)
    (hlast : s.lastId ≤ last) (hused : used ⊆ id :: a.used) :
    ({ s with lastId := last }.file id row).Agrees
      ⟨a.rows.insert (row.table, id) row, used⟩ := by
  have hget (table : String) (id' : RowId) :
      ({ s with lastId := last }.file id row).get? table id' =
        if table = row.table ∧ id' = id then some row else s.get? table id' :=
    get?_file { s with lastId := last } id id' row table
  refine ⟨?_, ?_, ?_, ?_⟩
  · intro table id'
    rw [hget]
    split
    next heq => rw [heq.1, heq.2, Finmap.lookup_insert]
    next hne => rw [Finmap.lookup_insert_of_ne _ (by simpa using hne), h.lookup]
  · intro table id' stored hstored
    rw [hget] at hstored
    split at hstored
    next heq =>
      cases hstored
      exact ⟨heq.1.symm, heq.2 ▸ hid⟩
    next => exact h.filed hstored
  · intro table id' stored hstored
    rw [hget] at hstored
    split at hstored
    next heq => exact heq.2 ▸ hle
    next => exact (h.stored_le hstored).trans hlast
  · intro id' hmem
    rcases List.mem_cons.mp (hused hmem) with rfl | hmem
    · exact hle
    · exact (h.used_le id' hmem).trans hlast

theorem Agrees.insert (h : s.Agrees a) (row : Row) :
    ∃ later, Archive.Step a (.insert row) (s.perform (.insert row)).1 later ∧
      (s.perform (.insert row)).2.Agrees later := by
  cases hid : row.id with
  | some id =>
      have hinsert : s.insert row =
          (row, id, { s with lastId := max s.lastId id }.file id row) := by
        simp [Store.insert, hid]
      rw [perform, hinsert]
      exact ⟨_, .insert hid,
        h.file hid (Nat.le_max_right _ _) (Nat.le_max_left _ _)
        (List.Subset.refl _)⟩
  | none =>
      have hinsert : s.insert row =
          ({ row with id := some (s.lastId + 1) }, s.lastId + 1,
            { s with lastId := s.lastId + 1 }.file (s.lastId + 1)
              { row with id := some (s.lastId + 1) }) := by
        simp [Store.insert, hid]
      rw [perform, hinsert]
      refine ⟨_, .assign hid ?_ ?_, h.file rfl (Nat.le_refl _) (Nat.le_succ _)
        (List.Subset.refl _)⟩
      · intro used hused
        exact Nat.lt_succ_of_le (h.used_le used hused)
      · intro table hmem
        obtain ⟨stored, hstored⟩ :=
          Option.isSome_iff_exists.mp (h.mem_iff.mp hmem)
        exact Nat.not_succ_le_self _ (h.stored_le hstored)

theorem Agrees.update (h : s.Agrees a) (row : Row) :
    ∃ later, Archive.Step a (.update row) (s.perform (.update row)).1 later ∧
      (s.perform (.update row)).2.Agrees later := by
  cases hid : row.id with
  | none =>
      have hupdate : s.update row = .error (.missingId row.table) := by
        simp [Store.update, hid]
      rw [perform, hupdate]
      exact ⟨a, .missingId hid, h⟩
  | some id =>
      cases hget : s.get? row.table id with
      | none =>
          have hupdate : s.update row = .error (.notFound row.table id) := by
            simp [Store.update, hid, hget]
          rw [perform, hupdate]
          exact ⟨a, .notFound hid (by simp [h.mem_iff, hget]), h⟩
      | some stored =>
          have hupdate : s.update row = .ok (s.file id row) := by
            simp [Store.update, hid, hget]
          rw [perform, hupdate]
          exact ⟨_, .update hid (by simp [h.mem_iff, hget]),
            h.file hid (h.stored_le hget) (Nat.le_refl _)
              (List.subset_cons_self _ _)⟩

theorem Agrees.delete (h : s.Agrees a) (table : String) (id : RowId) :
    ∃ later, Archive.Step a (.delete table id)
        (s.perform (.delete table id)).1 later ∧
      (s.perform (.delete table id)).2.Agrees later := by
  cases hget : s.get? table id with
  | none =>
      have hdelete : s.delete table id = (false, s) := by
        simp [Store.delete, hget]
      rw [perform, hdelete]
      exact ⟨a, .absent (by simp [h.mem_iff, hget]), h⟩
  | some stored =>
      have hremoved : (s.delete table id).1 = true := by
        simp [Store.delete, hget]
      have hlast : (s.delete table id).2.lastId = s.lastId := by
        simp [Store.delete, hget]
      have hkept {table' id' row}
          (hstored : (s.delete table id).2.get? table' id' = some row) :
          s.get? table' id' = some row := by
        rw [get?_delete] at hstored
        split at hstored
        · cases hstored
        · exact hstored
      refine ⟨⟨a.rows.erase (table, id), a.used⟩, ?_, ?_, ?_, ?_, ?_⟩
      · change Archive.Step a _ (.deleted (s.delete table id).1) _
        rw [hremoved]
        exact .delete (by simp [h.mem_iff, hget])
      · intro table' id'
        change _ = (s.delete table id).2.get? table' id'
        rw [get?_delete]
        split
        next heq => rw [heq.1, heq.2, Finmap.lookup_erase]
        next hne => rw [Finmap.lookup_erase_ne (by simpa using hne), h.lookup]
      · intro table' id' row hstored
        exact h.filed (hkept hstored)
      · intro table' id' row hstored
        exact hlast ▸ h.stored_le (hkept hstored)
      · intro used hused
        exact hlast ▸ h.used_le used hused

theorem Agrees.perform (h : s.Agrees a) (operation : Operation) :
    ∃ later, Archive.Step a operation (s.perform operation).1 later ∧
      (s.perform operation).2.Agrees later := by
  cases operation with
  | insert row => exact h.insert row
  | update row => exact h.update row
  | delete table id => exact h.delete table id

theorem Agrees.run (h : s.Agrees a) (operations : List Operation) :
    ∃ final, Archive.Run a operations (s.run operations).1 final ∧
      (s.run operations).2.Agrees final := by
  induction operations generalizing s a with
  | nil => exact ⟨a, .nil, h⟩
  | cons operation rest ih =>
      obtain ⟨later, hstep, hlater⟩ := h.perform operation
      obtain ⟨final, hrun, hfinal⟩ := ih hlater
      exact ⟨final, .cons hstep hrun, hfinal⟩

/-! ## Views -/

theorem Agrees.ids_eq (h : s.Agrees a) (table : String) :
    a.rows.ids table = (s.rows table).keys.toFinset := by
  ext id
  rw [Filing.mem_ids, List.mem_toFinset, SortedMap.mem_keys, h.lookup]
  rfl

private theorem sort_keys (s : Store) (table : String) :
    (s.rows table).keys.toFinset.sort = (s.rows table).keys := by
  apply (List.toFinset_sort (· ≤ ·) (s.rows table).nodup_keys).mpr
  apply (s.rows table).pairwise_keys.imp
  intro id id' hlt
  exact (Nat.compare_eq_lt.mp hlt).le

theorem Agrees.listed_eq (h : s.Agrees a) (table : String) :
    a.rows.listed table = s.all table := by
  rw [Filing.listed, h.ids_eq, sort_keys, all, ← SortedMap.filterMap_keys]
  apply List.filterMap_congr
  intro id _
  exact h.lookup table id

theorem Agrees.shows (h : s.Agrees a) : s.Shows a.rows := by
  refine ⟨?_, ?_, ?_, ?_, ?_⟩
  · intro table id
    exact (h.lookup table id).symm
  · intro table
    exact (h.listed_eq table).symm
  · intro table field code
    rw [h.listed_eq, withCode]
  · intro table
    rw [h.ids_eq, List.toFinset_card_of_nodup (s.rows table).nodup_keys,
      SortedMap.length_keys, count]
  · intro table id row hrow
    rw [h.lookup] at hrow
    exact h.filed hrow

/--
Every run of a store is a run of an archive with the same answers, and in the
end the store shows the rows of the archive.
-/
theorem exists_archive_of_run (operations : List Operation) :
    ∃ archive, Archive.Run .empty operations (empty.run operations).1 archive ∧
      (empty.run operations).2.Shows archive.rows := by
  obtain ⟨archive, hrun, hagrees⟩ := agrees_empty.run operations
  exact ⟨archive, hrun, hagrees.shows⟩

/-- The id of a row that is gone is not assigned again, in no table. -/
example :
    let first : Row := .new ⟨"A", [], 0, rfl⟩
    let second : Row := .new ⟨"B", [], 0, rfl⟩
    (empty.run [.insert { first with id := some 5 }, .delete "A" 5,
      .insert second]).1 =
      [.inserted { first with id := some 5 } 5, .deleted true,
        .inserted { second with id := some 6 } 6] := by
  decide +kernel

end Store

end ReportDesk
