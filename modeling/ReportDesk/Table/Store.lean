import ReportDesk.Table.Row

/-!
# The store of rows

Rows are filed by table and id.  All tables share one counter of ids.
-/

namespace ReportDesk

inductive StoreError where
  | missingId (table : String)
  | notFound (table : String) (id : RowId)
deriving DecidableEq, Repr

def StoreError.message : StoreError → String
  | .missingId table => "row of table " ++ table ++ " has no database id"
  | .notFound table id => "row " ++ id.text ++ " not found in table " ++ table

/-- The stored rows by table and id; `lastId` is the greatest id used so far. -/
structure Store where
  tables : SortedMap String (SortedMap RowId Row)
  lastId : RowId
deriving DecidableEq

namespace Store

def empty : Store := ⟨.empty, 0⟩

def rows (s : Store) (table : String) : SortedMap RowId Row :=
  (s.tables.get? table).getD .empty

def get? (s : Store) (table : String) (id : RowId) : Option Row :=
  (s.rows table).get? id

def all (s : Store) (table : String) : List Row :=
  (s.rows table).values

def withCode (s : Store) (table field code : String) : List Row :=
  (s.all table).filter fun row => row.code field == code

def count (s : Store) (table : String) : Nat :=
  (s.rows table).size

def file (s : Store) (id : RowId) (row : Row) : Store :=
  { s with tables :=
      s.tables.insert row.table ((s.rows row.table).insert id row) }

/--
Stores a row under its own id, or under a fresh one if it has none.  Answers
the row as it is stored, its id, and the store afterwards.
-/
def insert (s : Store) (row : Row) : Row × RowId × Store :=
  match row.id with
  | some id => (row, id, { s with lastId := max s.lastId id }.file id row)
  | none =>
      let id := s.lastId + 1
      let row := { row with id := some id }
      (row, id, { s with lastId := id }.file id row)

def update (s : Store) (row : Row) : Except StoreError Store :=
  match row.id with
  | none => .error (.missingId row.table)
  | some id =>
      if (s.get? row.table id).isSome then .ok (s.file id row)
      else .error (.notFound row.table id)

def delete (s : Store) (table : String) (id : RowId) : Bool × Store :=
  if (s.get? table id).isSome then
    (true, { s with tables := s.tables.insert table ((s.rows table).erase id) })
  else (false, s)

/-! ## Look-up after each operation -/

@[simp] theorem get?_empty (table : String) (id : RowId) :
    empty.get? table id = none := rfl

@[simp] theorem get?_file_self (s : Store) (id : RowId) (row : Row) :
    (s.file id row).get? row.table id = some row := by
  simp [file, get?, rows]

theorem get?_file_of_ne (s : Store) {id id' : RowId} {row : Row}
    {table : String} (h : ¬(table = row.table ∧ id' = id)) :
    (s.file id row).get? table id' = s.get? table id' := by
  by_cases ht : table = row.table
  · have hid : id' ≠ id := fun hid => h ⟨ht, hid⟩
    simp [file, get?, rows, ht, SortedMap.get?_insert_of_ne _ _ hid]
  · simp [file, get?, rows, SortedMap.get?_insert_of_ne _ _ ht]

theorem get?_file (s : Store) (id id' : RowId) (row : Row) (table : String) :
    (s.file id row).get? table id' =
      if table = row.table ∧ id' = id then some row else s.get? table id' := by
  split
  next heq => rw [heq.1, heq.2, get?_file_self]
  next hne => exact s.get?_file_of_ne hne

theorem get?_delete (s : Store) (table table' : String) (id id' : RowId) :
    (s.delete table id).2.get? table' id' =
      if table' = table ∧ id' = id then none else s.get? table' id' := by
  unfold delete
  split
  next h =>
    by_cases ht : table' = table
    · subst ht
      by_cases hid : id' = id
      · simp [get?, rows, hid]
      · simp [get?, rows, hid, SortedMap.get?_erase_of_ne _ hid]
    · simp [get?, rows, ht, SortedMap.get?_insert_of_ne _ _ ht]
  next h =>
    split
    next heq => simpa [heq.1, heq.2] using h
    next => rfl

theorem update_of_get? {s : Store} {row : Row} {id : RowId}
    (hid : row.id = some id) (h : (s.get? row.table id).isSome = true) :
    s.update row = .ok (s.file id row) := by
  simp [update, hid, h]

theorem rows_file_self (s : Store) (id : RowId) (row : Row) :
    (s.file id row).rows row.table = (s.rows row.table).insert id row := by
  simp [file, rows]

theorem rows_file_of_ne (s : Store) {id : RowId} {row : Row} {table : String}
    (h : table ≠ row.table) : (s.file id row).rows table = s.rows table := by
  simp [file, rows, SortedMap.get?_insert_of_ne _ _ h]

theorem rows_delete_of_ne (s : Store) {table table' : String} (id : RowId)
    (h : table' ≠ table) :
    (s.delete table id).2.rows table' = s.rows table' := by
  unfold delete
  split
  · simp [rows, SortedMap.get?_insert_of_ne _ _ h]
  · rfl

/-! ## Filing twice -/

theorem file_file (s : Store) {row row' : Row} (h : row'.table = row.table)
    (id id' : RowId) :
    (s.file id row).file id' row' =
      ⟨s.tables.insert row.table
        (((s.rows row.table).insert id row).insert id' row'),
        s.lastId⟩ := by
  rw [file, h, rows_file_self]
  simp only [file, SortedMap.insert_insert_self]

theorem file_comm (s : Store) {row row' : Row} (h : row'.table = row.table)
    {id id' : RowId} (hne : id ≠ id') :
    (s.file id row).file id' row' = (s.file id' row').file id row := by
  rw [file_file s h, file_file s h.symm, h, SortedMap.insert_comm _ _ _ hne]

end Store

end ReportDesk
