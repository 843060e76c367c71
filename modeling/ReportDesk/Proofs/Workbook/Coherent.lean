import ReportDesk.Proofs.Formula.Apart
import ReportDesk.Proofs.Workbook.Loading
import ReportDesk.Workbook.Solve

/-!
# Coherent workbooks

In a workbook that was loaded from a file every row has its place, and the
revision of a schema tells the definitions of a table apart.
-/

namespace ReportDesk

/-! ## Coherent stores -/

namespace Store

/--
Every row is filed under its table and id, and a revision stands for one
definition of a table.
-/
structure Coherent (s : Store) : Prop where
  filed : ∀ {table id row}, s.get? table id = some row →
    row.table = table ∧ row.id = some id
  revisions : ∀ {table id id' row row'}, s.get? table id = some row →
    s.get? table id' = some row' → row.schema.revision = row'.schema.revision →
      row.schema = row'.schema

end Store

namespace Workbook

/-! ## Loading a file -/

/-- Every row has the schema that is loaded for its table. -/
def Registered (registry : Registry) (s : Store) : Prop :=
  ∀ table id row, s.get? table id = some row →
    row.table = table ∧ row.id = some id ∧ registry.get table = .ok row.schema

theorem Registered.coherent {registry : Registry} {s : Store}
    (h : Registered registry s) :
    s.Coherent := by
  constructor
  · intro table id row hget
    obtain ⟨htable, hid, -⟩ := h table id row hget
    exact ⟨htable, hid⟩
  · intro table id id' row row' hget hget' _
    obtain ⟨-, -, hschema⟩ := h table id row hget
    obtain ⟨-, -, hschema'⟩ := h table id' row' hget'
    exact Except.ok.inj (hschema.symm.trans hschema')

theorem Registered.storeRows {registry : Registry} {s : Store}
    (h : Registered registry s) {schema : Schema}
    (hschema : registry.get schema.sheetName = .ok schema)
    (rows : List RowData) : Registered registry (storeRows schema s rows) := by
  induction rows generalizing s with
  | nil => exact h
  | cons data rest ih =>
      rw [Workbook.storeRows, List.foldl_cons, Store.insert_eq]
      apply ih
      intro table id row hget
      rw [Store.get?_file] at hget
      split at hget
      next heq =>
        obtain rfl := Option.some.inj hget
        exact ⟨heq.1.symm, congrArg some heq.2.symm, heq.1 ▸ hschema⟩
      next => exact h table id row hget

theorem Registered.storeTables {registry : Registry}
    (hregistry : registry.Filed) {entries : List (String × List RowData)}
    {s s' : Store} (h : Registered registry s)
    (hstore : storeTables registry entries s = .ok s') :
    Registered registry s' := by
  induction entries generalizing s with
  | nil =>
      cases hstore
      exact h
  | cons entry rest ih =>
      rw [Workbook.storeTables] at hstore
      split at hstore
      next schema hget =>
        refine ih (h.storeRows ?_ entry.2) hstore
        rwa [hregistry _ _ (Registry.get_eq_ok_iff.mp hget)]
      next => cases hstore

theorem registered_ofFile {file : WorkbookFile} {w : Workbook}
    (h : ofFile file = .ok w) :
    Registered w.registry w.store := by
  unfold ofFile at h
  simp only at h
  cases hstore :
    storeTables (loadSchemas .empty file.schemas) file.rows.entries .empty with
  | error failure =>
      rw [hstore] at h
      cases h
  | ok s =>
      rw [hstore] at h
      cases h
      have hempty : Registry.empty.Filed := by
        intro name schema hget
        cases hget
      have hstart : Registered (loadSchemas .empty file.schemas) .empty := by
        intro table id row hget
        cases hget
      exact Registered.storeTables
        (filed_loadSchemas hempty file.schemas) hstart hstore

def loaded (file : WorkbookFile) : Workbook :=
  match ofFile file with
  | .ok w => w
  | .error _ => .empty

theorem registered_loaded (file : WorkbookFile) :
    Registered (loaded file).registry (loaded file).store := by
  unfold loaded
  cases h : ofFile file with
  | error failure =>
      intro table id row hget
      cases hget
  | ok w => exact registered_ofFile h

theorem coherent_loaded (file : WorkbookFile) : (loaded file).store.Coherent :=
  (registered_loaded file).coherent

/-! ## Solving a table -/

theorem solveTable_of_rows (session : Session) {w : Workbook} {table : String}
    (header : String) {id : Option RowId} {rows : List Row}
    (h : w.rows table id = .ok rows) :
    (solveTable session w table header id).store =
        (solveRows session table header 0 .empty w.store rows).store ∧
      (solveTable session w table header id).result =
        (solveRows session table header 0 .empty w.store rows).result := by
  rw [solveTable, h]
  simp only
  cases hresult : (solveRows session table header 0 .empty w.store rows).result
    with
  | error failure => exact ⟨rfl, hresult⟩
  | ok solved => exact ⟨rfl, rfl⟩

end Workbook

end ReportDesk
