import Mathlib.Data.List.Nodup
import ReportDesk.Table.Row

/-!
# Columns and values of a row

The columns of a schema have distinct ids.  Writing a value touches one cell,
and writing a value that a cell already holds changes nothing.
-/

namespace ReportDesk

/-! ## Columns -/

theorem Column.firstFault?_eq_none_iff {table : String} {seen : List String}
    {columns : List Column} :
    firstFault? table seen columns = none ↔
      (∀ column ∈ columns,
          Text.isBlankText column.id = false ∧ column.id ∉ seen) ∧
        (columns.map Column.id).Nodup := by
  induction columns generalizing seen with
  | nil => simp [firstFault?]
  | cons column rest ih =>
      rw [firstFault?, List.map_cons, List.nodup_cons, List.forall_mem_cons]
      split
      next hblank => simp [hblank]
      next hfilled =>
        split
        next hseen => simp [List.contains_iff_mem.mp hseen]
        next hfresh =>
          rw [Bool.not_eq_true] at hfilled
          rw [List.contains_iff_mem] at hfresh
          rw [ih]
          constructor
          · rintro ⟨hrest, hnodup⟩
            refine ⟨⟨⟨hfilled, hfresh⟩, fun other hother =>
              ⟨(hrest other hother).1, fun hseen =>
                (hrest other hother).2 (List.mem_cons_of_mem _ hseen)⟩⟩,
              fun hmem => ?_, hnodup⟩
            obtain ⟨other, hother, hid⟩ := List.mem_map.mp hmem
            exact (hrest other hother).2 (hid ▸ List.mem_cons_self)
          · rintro ⟨⟨-, hrest⟩, hunique, hnodup⟩
            refine ⟨fun other hother =>
              ⟨(hrest other hother).1, fun hmem => ?_⟩, hnodup⟩
            rcases List.mem_cons.mp hmem with hid | hseen
            · exact hunique (List.mem_map.mpr ⟨other, hother, hid⟩)
            · exact (hrest other hother).2 hseen

namespace Schema

theorem nodup_ids (schema : Schema) : (schema.columns.map Column.id).Nodup :=
  (Column.firstFault?_eq_none_iff.mp schema.faultless).2

theorem nodup_idsWith (schema : Schema) (header : String) :
    ((schema.columnsWith header).map Column.id).Nodup :=
  schema.nodup_ids.sublist (List.filter_sublist.map Column.id)

theorem column?_of_mem {schema : Schema} {column : Column}
    (h : column ∈ schema.columns) :
    schema.column? column.id = some column := by
  cases hfind : schema.column? column.id with
  | none => simpa using List.find?_eq_none.mp hfind column h
  | some found =>
      have hid : found.id = column.id := by simpa using List.find?_some hfind
      rw [List.inj_on_of_nodup_map schema.nodup_ids
        (List.mem_of_find?_eq_some hfind) h hid]

theorem exists_column_of_contains {schema : Schema} {id : String}
    (h : schema.contains id = true) :
    ∃ column ∈ schema.columns, column.id = id := by
  obtain ⟨column, hfind⟩ := Option.isSome_iff_exists.mp h
  have hid : column.id = id := by
    have hfound := List.find?_some hfind
    exact beq_iff_eq.mp hfound
  exact ⟨column, List.mem_of_find?_eq_some hfind, hid⟩

end Schema

/-! ## Writing a value -/

namespace Row

variable (r : Row) (column value header : String)

def writtenCell (cell : Cell) (value header : String) : Cell :=
  match Header.target header with
  | .label => { cell with label := some value }
  | .code => { cell with code := value }
  | .both => ⟨value, some value⟩

theorem write_eq_put :
    r.write column value header =
      r.put column
        (writtenCell ((r.cell? column).getD .blank) value header) := by
  unfold write writtenCell
  cases Header.target header with
  | label => rfl
  | code => rfl
  | both => rfl

theorem schema_write : (r.write column value header).schema = r.schema := by
  rw [write_eq_put]
  rfl

theorem id_write : (r.write column value header).id = r.id := by
  rw [write_eq_put]
  rfl

theorem cell?_write_self :
    (r.write column value header).cell? column =
      some (writtenCell ((r.cell? column).getD .blank) value header) := by
  rw [write_eq_put, cell?_put_self]

theorem cell?_write_of_ne {column column' : String} (h : column' ≠ column) :
    (r.write column value header).cell? column' = r.cell? column' := by
  rw [write_eq_put, cell?_put_of_ne _ _ h]

private theorem writtenCell_writtenCell (cell : Cell) :
    writtenCell (writtenCell cell value header) value header =
      writtenCell cell value header := by
  unfold writtenCell
  cases Header.target header with
  | label => rfl
  | code => rfl
  | both => rfl

theorem write_eq_self {r r' : Row} {column value header : String}
    (h : r.cell? column = (r'.write column value header).cell? column) :
    r.write column value header = r := by
  rw [cell?_write_self] at h
  have hcells : (r.write column value header).cells = r.cells := by
    refine SortedMap.eq_of_get?_eq fun key => ?_
    change (r.write column value header).cell? key = r.cell? key
    by_cases hkey : key = column
    · rw [hkey, cell?_write_self, h, Option.getD_some, writtenCell_writtenCell]
    · exact r.cell?_write_of_ne value header hkey
  rw [write_eq_put] at hcells ⊢
  exact congrArg (fun cells => ({ r with cells } : Row)) hcells

/-- The row after a turn; an empty value is not written. -/
def keep : Row :=
  if value.isEmpty then r else r.write column value header

theorem keep_eq_self {r r' : Row} {column value header : String}
    (h : r.cell? column = (r'.keep column value header).cell? column) :
    r.keep column value header = r := by
  unfold keep at h ⊢
  split at h
  next hempty => rw [if_pos hempty]
  next hempty =>
      rw [if_neg hempty]
      exact write_eq_self h

end Row

end ReportDesk
