import Mathlib.Data.List.Forall2
import ReportDesk.Proofs.Table.Keys
import ReportDesk.Workbook.Basic

/-!
# Loading a workbook

A row without an id takes the next id when its turn comes, and the ids that
later rows give are not known then.  A row is lost exactly when it drew an id
that a later row of its table gives.
-/

namespace ReportDesk

/-! ## The registry -/

def Registry.Filed (r : Registry) : Prop :=
  ∀ name schema, r.schemas.get? name = some schema → schema.sheetName = name

theorem Registry.Filed.load {r : Registry} (h : r.Filed) (schema : Schema) :
    (r.load schema).2.Filed := by
  intro name found hfound
  by_cases hname : name = schema.sheetName
  · subst hname
    have heq : schema.stamp (r.lastRevision + 1) = found := by
      simpa [Registry.load, Schema.stamp] using hfound
    rw [← heq]
    rfl
  · apply h name found
    simpa [Registry.load, Schema.stamp, SortedMap.get?_insert_of_ne _ _ hname]
      using hfound

namespace Workbook

variable {registry : Registry}

theorem filed_loadSchemas (h : registry.Filed) (schemas : List Schema) :
    (loadSchemas registry schemas).Filed := by
  induction schemas generalizing registry with
  | nil => exact h
  | cons schema rest ih => exact ih (h.load schema)

private theorem mem_keys_loadSchemas {schemas : List Schema} {name : String} :
    name ∈ (loadSchemas registry schemas).schemas.keys ↔
      name ∈ registry.schemas.keys ∨ ∃ schema ∈ schemas,
        schema.sheetName = name := by
  induction schemas generalizing registry with
  | nil => simp [loadSchemas]
  | cons schema rest ih =>
      change name ∈ (loadSchemas (registry.load schema).2 rest).schemas.keys ↔ _
      rw [ih]
      simp only [Registry.load, SortedMap.mem_keys_insert, Schema.stamp,
        List.mem_cons]
      grind

private theorem get_loadSchemas {schemas : List Schema} {name : String}
    (h : ∃ schema ∈ schemas, schema.sheetName = name) :
    ∃ schema, (loadSchemas .empty schemas).get name = .ok schema ∧
      schema.sheetName = name := by
  have hkey : name ∈ (loadSchemas .empty schemas).schemas.keys :=
    mem_keys_loadSchemas.mpr (.inr h)
  obtain ⟨schema, hschema⟩ :=
    Option.isSome_iff_exists.mp (SortedMap.mem_keys.mp hkey)
  have hempty : Registry.empty.Filed := by
    intro name schema h
    simp [Registry.empty] at h
  exact ⟨schema, Registry.get_eq_ok_iff.mpr hschema,
    filed_loadSchemas hempty schemas name schema hschema⟩

end Workbook

/-! ## Storing one row -/

namespace Store

def idFor (last : RowId) (data : RowData) : RowId :=
  data.id.getD (last + 1)

theorem insert_eq (s : Store) (schema : Schema) (data : RowData) :
    (s.insert (.ofData schema data)).2.2 =
      Store.file ⟨s.tables, max s.lastId (idFor s.lastId data)⟩
        (idFor s.lastId data)
        ⟨some (idFor s.lastId data), schema, data.cells⟩ := by
  cases hid : data.id with
  | none => simp [insert, Row.ofData, idFor, hid]
  | some id => simp [insert, Row.ofData, idFor, hid]

end Store

/-! ## The ids of the rows of a table -/

namespace Workbook

/--
The ids that rows are stored under; `last` is the greatest id used before.
-/
def idsFrom : RowId → List RowData → List RowId
  | _, [] => []
  | last, data :: rest =>
      Store.idFor last data :: idsFrom (max last (Store.idFor last data)) rest

def lastAfter : RowId → List RowData → RowId
  | last, [] => last
  | last, data :: rest => lastAfter (max last (Store.idFor last data)) rest

/-- No row draws an id that a later row gives. -/
def Undisturbed : RowId → List RowData → Prop
  | _, [] => True
  | last, data :: rest =>
      (data.id = none → some (last + 1) ∉ rest.map RowData.id) ∧
        Undisturbed (max last (Store.idFor last data)) rest

instance decidableUndisturbed : (last : RowId) → (rows : List RowData) →
    Decidable (Undisturbed last rows)
  | _, [] => inferInstanceAs (Decidable True)
  | last, data :: rest =>
      have := decidableUndisturbed (max last (Store.idFor last data)) rest
      inferInstanceAs (Decidable (_ ∧ _))

private theorem length_idsFrom (last : RowId) (rows : List RowData) :
    (idsFrom last rows).length = rows.length := by
  induction rows generalizing last with
  | nil => rfl
  | cons data rest ih => simp [idsFrom, ih]

/--
Ids that are drawn are new, so an id used before can only come back when it is
given.
-/
theorem mem_idsFrom_of_le {last id : RowId} (rows : List RowData)
    (h : id ≤ last) :
    id ∈ idsFrom last rows ↔ some id ∈ rows.map RowData.id := by
  induction rows generalizing last with
  | nil => simp [idsFrom]
  | cons data rest ih =>
      rw [idsFrom, List.mem_cons, ih (Nat.le_trans h (Nat.le_max_left _ _)),
        List.map_cons, List.mem_cons]
      apply or_congr _ Iff.rfl
      cases hid : data.id with
      | none =>
          have hne : id ≠ last + 1 := Nat.ne_of_lt (Nat.lt_succ_of_le h)
          simp [Store.idFor, hid, hne]
      | some given => simp [Store.idFor, hid]

private theorem nodup_idsFrom_iff {last : RowId} {rows : List RowData}
    (h : (rows.filterMap RowData.id).Nodup) :
    (idsFrom last rows).Nodup ↔ Undisturbed last rows := by
  induction rows generalizing last with
  | nil => simp [idsFrom, Undisturbed]
  | cons data rest ih =>
      rw [idsFrom, Undisturbed, List.nodup_cons,
        mem_idsFrom_of_le rest (Nat.le_max_right last _)]
      cases hid : data.id with
      | none =>
          rw [List.filterMap_cons_none hid] at h
          simp [Store.idFor, hid, ih h]
      | some given =>
          rw [List.filterMap_cons_some hid, List.nodup_cons] at h
          have hgiven : some given ∉ rest.map RowData.id := by
            simpa [List.mem_filterMap] using h.1
          simp [Store.idFor, hid, ih h.2, hgiven]

/-! ## Storing the rows of a table -/

def filedRows (schema : Schema) (last : RowId) (rows : List RowData) :
    List (RowId × Row) :=
  (idsFrom last rows).zipWith
    (fun id data => (id, ⟨some id, schema, data.cells⟩)) rows

theorem keys_filedRows (schema : Schema) (last : RowId) (rows : List RowData) :
    (filedRows schema last rows).map Prod.fst = idsFrom last rows := by
  induction rows generalizing last with
  | nil => rfl
  | cons data rest ih => simpa [filedRows, idsFrom] using ih _

variable {schema : Schema} {table : String}

private theorem lastId_storeRows (s : Store) (rows : List RowData) :
    (storeRows schema s rows).lastId = lastAfter s.lastId rows := by
  induction rows generalizing s with
  | nil => rfl
  | cons data rest ih =>
      rw [storeRows, List.foldl_cons, Store.insert_eq]
      exact ih _

private theorem rows_storeRows_self (s : Store) (rows : List RowData) :
    (storeRows schema s rows).rows schema.sheetName =
      (s.rows schema.sheetName).insertAll (filedRows schema s.lastId rows) := by
  induction rows generalizing s with
  | nil => rfl
  | cons data rest ih =>
      rw [storeRows, List.foldl_cons, Store.insert_eq]
      apply (ih _).trans
      exact congrArg (fun m => SortedMap.insertAll m _)
        (Store.rows_file_self _ _ _)

private theorem rows_storeRows_of_ne (s : Store) (rows : List RowData)
    (h : table ≠ schema.sheetName) :
    (storeRows schema s rows).rows table = s.rows table := by
  induction rows generalizing s with
  | nil => rfl
  | cons data rest ih =>
      rw [storeRows, List.foldl_cons, Store.insert_eq]
      exact (ih _).trans (Store.rows_file_of_ne _ h)

/-! ## Whether every row is there -/

structure Stored (s : Store) (table : String) (id : RowId) (data : RowData) :
    Prop where
  row : (s.get? table id).map Row.toData = some { data with id := some id }
  given : ∀ given, data.id = some given → given = id

/-- The table consists of the listed rows, each under an id of its own. -/
structure Complete (s : Store) (table : String) (rows : List RowData) :
    Prop where
  count : s.count table = rows.length
  stored : ∃ ids : List RowId,
    ids.Nodup ∧ List.Forall₂ (Stored s table) ids rows

private theorem stored_idsFrom {s : Store} {last : RowId} {rows : List RowData}
    (h : ∀ id row, (id, row) ∈ filedRows schema last rows →
      s.get? table id = some row) :
    List.Forall₂ (Stored s table) (idsFrom last rows) rows := by
  induction rows generalizing last with
  | nil => exact .nil
  | cons data rest ih =>
      have hfirst :=
        h (Store.idFor last data) ⟨_, schema, data.cells⟩ List.mem_cons_self
      refine .cons ⟨?_, ?_⟩
        (ih fun id row hmem => h id row (List.mem_cons_of_mem _ hmem))
      · simp [hfirst, Row.toData]
      · intro given hgiven
        simp [Store.idFor, hgiven]

private theorem complete_iff {s : Store} {last : RowId} {rows : List RowData}
    (hrows : s.rows table =
      SortedMap.empty.insertAll (filedRows schema last rows))
    (hids : (rows.filterMap RowData.id).Nodup) :
    Complete s table rows ↔ Undisturbed last rows := by
  have hlength : (filedRows schema last rows).length = rows.length := by
    rw [← List.length_map Prod.fst, keys_filedRows, length_idsFrom]
  rw [← nodup_idsFrom_iff hids, ← keys_filedRows schema]
  constructor
  · rintro ⟨hcount, -⟩
    rw [← SortedMap.size_insertAll_empty_iff, ← hrows, hlength]
    exact hcount
  · intro hnodup
    refine ⟨?_, idsFrom last rows, keys_filedRows schema last rows ▸ hnodup, ?_⟩
    · rw [← hlength, ← SortedMap.size_insertAll_empty_iff.mpr hnodup, ← hrows]
      rfl
    · refine stored_idsFrom
        fun id row (hmem : (id, row) ∈ filedRows schema last rows) => ?_
      rw [Store.get?, hrows, SortedMap.get?_insertAll_of_mem hnodup hmem]

/-! ## Storing the tables -/

def UndisturbedTables : RowId → List (String × List RowData) → Prop
  | _, [] => True
  | last, (_, rows) :: rest =>
      Undisturbed last rows ∧ UndisturbedTables (lastAfter last rows) rest

instance decidableUndisturbedTables : (last : RowId) →
    (entries : List (String × List RowData)) →
    Decidable (UndisturbedTables last entries)
  | _, [] => inferInstanceAs (Decidable True)
  | last, (_, rows) :: rest =>
      have := decidableUndisturbedTables (lastAfter last rows) rest
      inferInstanceAs (Decidable (_ ∧ _))

theorem storeTables_complete_iff {registry : Registry}
    {entries : List (String × List RowData)} {s : Store}
    (hschemas : ∀ entry ∈ entries, ∃ schema, registry.get entry.1 = .ok schema ∧
      schema.sheetName = entry.1)
    (hids : ∀ entry ∈ entries, (entry.2.filterMap RowData.id).Nodup)
    (hnodup : (entries.map Prod.fst).Nodup)
    (hempty : ∀ entry ∈ entries, s.rows entry.1 = .empty) :
    ∃ s', storeTables registry entries s = .ok s' ∧
      (∀ table ∉ entries.map Prod.fst, s'.rows table = s.rows table) ∧
      ((∀ entry ∈ entries, Complete s' entry.1 entry.2) ↔
        UndisturbedTables s.lastId entries) := by
  induction entries generalizing s with
  | nil => exact ⟨s, rfl, by simp, by simp [UndisturbedTables]⟩
  | cons entry rest ih =>
      obtain ⟨name, rows⟩ := entry
      simp only [List.forall_mem_cons] at hschemas hids hempty
      obtain ⟨⟨schema, hget, rfl⟩, hschemas⟩ := hschemas
      obtain ⟨hfresh, hnodup⟩ := List.nodup_cons.mp hnodup
      have hother {table : String} (h : table ∈ rest.map Prod.fst) : table ≠
          schema.sheetName :=
        fun heq => hfresh (heq ▸ h)
      obtain ⟨s', hstore, hkept, hiff⟩ :=
        ih (s := storeRows schema s rows) hschemas hids.2 hnodup
        fun entry hentry => by
          rw [rows_storeRows_of_ne s rows (hother (List.mem_map_of_mem hentry))]
          exact hempty.2 entry hentry
      refine ⟨s', ?_, ?_, ?_⟩
      · simp [storeTables, hget, hstore]
      · intro table htable
        simp only [List.map_cons, List.mem_cons, not_or] at htable
        rw [hkept table htable.2, rows_storeRows_of_ne s rows htable.1]
      · have hrows : s'.rows schema.sheetName =
            SortedMap.empty.insertAll (filedRows schema s.lastId rows) := by
          rw [hkept _ hfresh, rows_storeRows_self, hempty.1]
        rw [List.forall_mem_cons, UndisturbedTables, hiff, lastId_storeRows,
          complete_iff hrows hids.1]

/-! ## Loading a file -/

def listed (file : WorkbookFile) (table : String) : List RowData :=
  (file.rows.get? table).getD []

private theorem listed_of_mem {file : WorkbookFile}
    {entry : String × List RowData}
    (h : entry ∈ file.rows.entries) : listed file entry.1 = entry.2 := by
  simp [listed, (SortedMap.get?_eq_some_iff _ _ _).mpr h]

private theorem complete_of_empty {s : Store} (h : s.rows table = .empty) :
    Complete s table [] := by
  refine ⟨?_, [], List.nodup_nil, .nil⟩
  rw [Store.count, h]
  rfl

/--
A file whose tables have schemas, and whose rows do not give an id twice, is
loaded; every row is there unless one drew an id that a later row gives.
-/
theorem ofFile_complete_iff {file : WorkbookFile}
    (hschemas : ∀ entry ∈ file.rows.entries, ∃ schema ∈ file.schemas,
      schema.sheetName = entry.1)
    (hids : ∀ entry ∈ file.rows.entries, (entry.2.filterMap RowData.id).Nodup) :
    ∃ w, ofFile file = .ok w ∧
      ((∀ table, Complete w.store table (listed file table)) ↔
        UndisturbedTables 0 file.rows.entries) := by
  obtain ⟨s, hstore, hkept, hiff⟩ := storeTables_complete_iff (s := .empty)
    (fun entry hentry => get_loadSchemas (hschemas entry hentry)) hids
    file.rows.nodup_keys
    fun _ _ => rfl
  refine ⟨⟨loadSchemas .empty file.schemas, s⟩, ?_, ?_⟩
  · simp [ofFile, hstore]
  · apply Iff.trans _ hiff
    constructor
    · intro hall entry hentry
      rw [← listed_of_mem hentry]
      exact hall entry.1
    · intro hall table
      by_cases htable : table ∈ file.rows.entries.map Prod.fst
      · obtain ⟨entry, hentry, rfl⟩ := List.mem_map.mp htable
        rw [listed_of_mem hentry]
        exact hall entry hentry
      · have hnone : file.rows.get? table = none := by
          rw [← Option.not_isSome_iff_eq_none, ← SortedMap.mem_keys]
          exact htable
        rw [listed, hnone]
        exact complete_of_empty (hkept table htable)

/-! ## Ids drawn between ids that are given -/

def plainSchema (name : String) : Schema := ⟨name, [.named "a"], 0, rfl⟩

def plainRow (id : Option RowId) (code : String) : RowData :=
  ⟨id, .ofList [("a", .plain code)]⟩

def mixedIds : WorkbookFile where
  schemas := [plainSchema "S", plainSchema "T"]
  rows := .ofList
    [("S", [plainRow (some 2) "one", plainRow none "two"]),
     ("T", [plainRow none "three", plainRow (some 2) "four",
       plainRow none "five"])]

theorem ofFile_complete_mixedIds :
    ∃ w, ofFile mixedIds = .ok w ∧ ∀ table,
      Complete w.store table (listed mixedIds table) := by
  have hschemas : ∀ entry ∈ mixedIds.rows.entries, ∃ schema ∈ mixedIds.schemas,
      schema.sheetName = entry.1 := by decide
  have hids : ∀ entry ∈ mixedIds.rows.entries,
      (entry.2.filterMap RowData.id).Nodup := by
    decide
  obtain ⟨w, hload, hiff⟩ := ofFile_complete_iff hschemas hids
  exact ⟨w, hload, hiff.mpr (by decide)⟩

def idGivenLate : WorkbookFile where
  schemas := [plainSchema "T"]
  rows := .ofList [("T", [plainRow none "first", plainRow (some 1) "second"])]

/-- A row that gives the first id replaces the row that drew it. -/
theorem ofFile_idGivenLate_loses_row :
    (∀ entry ∈ idGivenLate.rows.entries, ∃ schema ∈ idGivenLate.schemas,
        schema.sheetName = entry.1) ∧
      (∀ entry ∈ idGivenLate.rows.entries,
        (entry.2.filterMap RowData.id).Nodup) ∧
      (listed idGivenLate "T").length = 2 ∧
      ∃ w, ofFile idGivenLate = .ok w ∧ w.store.count "T" = 1 ∧
        ¬ Complete w.store "T" (listed idGivenLate "T") := by
  refine ⟨by decide, by decide, by decide, ?_⟩
  have hcount : (ofFile idGivenLate).toOption.map (fun w => w.store.count "T") =
      some 1 := by
    decide +kernel
  cases hload : ofFile idGivenLate with
  | error failure => simp [hload, Except.toOption] at hcount
  | ok w =>
      have hone : w.store.count "T" = 1 := by
        simpa [hload, Except.toOption] using hcount
      refine ⟨w, rfl, hone, fun hcomplete => ?_⟩
      have htwo := hcomplete.count
      rw [hone] at htwo
      exact absurd htwo (by decide)

end Workbook

end ReportDesk
