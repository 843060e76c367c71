import ReportDesk.Proofs.Json.Shape
import ReportDesk.Proofs.Table.Keys
import ReportDesk.Proofs.Table.Row

/-!
# Tables in JSON

Cells, rows and schemas are read from the values of their shape and from no
other, and are written as values of it; so they come back as they were.  A
schema is read only if its column ids are not blank and differ.
-/

namespace ReportDesk

open Json (IsDefaulted IsGiven IsList IsMembers IsNatural IsOptional IsRecord
  IsText Reads)

/-! ## Cells -/

namespace Cell

def Shape (value : Json) (c : Cell) : Prop :=
  ∃ code label, IsRecord ["code", "label"] value [code, label] ∧
    IsDefaulted IsText "" code c.code ∧ IsOptional IsText label c.label

theorem reads_ofJson : Reads ofJson Shape := by
  intro value c
  unfold ofJson Shape
  simp only [bind_eq_ok_iff, Json.recordFields_eq_ok_iff,
    IsRecord.exists_two_iff, Json.reads_asString.withDefault,
    Json.reads_asString.optional]
  refine exists₂_congr fun code label => and_congr_right fun _ => ?_
  constructor
  · rintro ⟨_, hcode, _, hlabel, hcell⟩
    cases hcell
    exact ⟨hcode, hlabel⟩
  · rintro ⟨hcode, hlabel⟩
    exact ⟨_, hcode, _, hlabel, rfl⟩

theorem shape_toJson (c : Cell) : Shape c.toJson c :=
  ⟨_, _, Json.isRecord_objectOfPresent [("code", _), ("label", _)] (by simp),
    .given (.string _), Json.isOptional_map .string (by simp) _⟩

end Cell

/-! ## Rows -/

namespace RowData

def Shape (value : Json) (d : RowData) : Prop :=
  ∃ id cells entries, IsRecord ["id", "cells"] value [id, cells] ∧
    IsOptional (IsNatural Numeral.word64) id d.id ∧
    IsDefaulted (IsMembers Cell.Shape) [] cells entries ∧
    d.cells = .ofList entries

theorem reads_ofJson : Reads ofJson Shape := by
  intro value d
  unfold ofJson Shape
  simp only [bind_eq_ok_iff, Json.recordFields_eq_ok_iff,
    IsRecord.exists_two_iff, (Json.reads_asNatural Numeral.word64).optional,
    Cell.reads_ofJson.members.withDefault]
  refine exists₂_congr fun id cells => ?_
  constructor
  · rintro ⟨hslots, _, hid, entries, hcells, hrow⟩
    cases hrow
    exact ⟨entries, hslots, hid, hcells, rfl⟩
  · rintro ⟨entries, hslots, hid, hcells, hentries⟩
    exact ⟨hslots, _, hid, _, hcells, by rw [← hentries]; rfl⟩

def InRange (d : RowData) : Prop :=
  ∀ id, d.id = some id → id < Numeral.word64

theorem shape_toJson {d : RowData} (h : d.InRange) : Shape d.toJson d := by
  refine ⟨_, _, _,
    Json.isRecord_objectOfPresent [("id", _), ("cells", _)] (by simp), ?_,
    .given (Json.isMembers_map Cell.shape_toJson d.cells.entries),
    (SortedMap.ofList_entries d.cells).symm⟩
  cases hid : d.id with
  | none => exact .absent
  | some id => exact .given (by simp) (.natural (h id hid))

end RowData

/-! ## Schemas -/

namespace Column

def Shape (value : Json) (c : Column) : Prop :=
  ∃ id label fields entries,
      IsRecord ["id", "label", "fields"] value [id, label, fields] ∧
    IsGiven IsText id c.id ∧ IsOptional IsText label c.label ∧
    IsDefaulted (IsMembers IsText) [] fields entries ∧
    c.fields = .ofList entries

theorem reads_ofJson : Reads ofJson Shape := by
  intro value c
  unfold ofJson Shape
  simp only [bind_eq_ok_iff, Json.recordFields_eq_ok_iff,
    IsRecord.exists_three_iff, Json.reads_asString.required,
    Json.reads_asString.optional, Json.reads_asString.members.withDefault]
  refine exists₃_congr fun id label fields => ?_
  constructor
  · rintro ⟨hslots, _, hid, _, hlabel, entries, hfields, hcolumn⟩
    cases hcolumn
    exact ⟨entries, hslots, hid, hlabel, hfields, rfl⟩
  · rintro ⟨entries, hslots, hid, hlabel, hfields, hentries⟩
    exact ⟨hslots, _, hid, _, hlabel, _, hfields, by rw [← hentries]; rfl⟩

theorem shape_toJson (c : Column) : Shape c.toJson c :=
  ⟨_, _, _, _,
    Json.isRecord_objectOfPresent [("id", _), ("label", _), ("fields", _)]
    (by simp),
    .given (.string _), Json.isOptional_map .string (by simp) _,
    .given (Json.isMembers_map .string c.fields.entries),
    (SortedMap.ofList_entries c.fields).symm⟩

end Column

namespace Schema

def Shape (value : Json) (sheetName : String) (columns : List Column) : Prop :=
  ∃ name list, IsRecord ["sheetName", "columns"] value [name, list] ∧
    IsGiven IsText name sheetName ∧
    IsDefaulted (IsList Column.Shape) [] list columns

theorem build_eq_ok_iff {revision : Nat} {sheetName : String}
    {columns : List Column}
    {s : Schema} : build revision sheetName columns = .ok s ↔
      s.sheetName = sheetName ∧ s.columns = columns ∧
        s.revision = revision := by
  unfold build
  constructor
  · intro h
    split at h
    · cases h
      exact ⟨rfl, rfl, rfl⟩
    · cases h
  · rintro ⟨rfl, rfl, rfl⟩
    split
    · rfl
    next hfault => exact absurd s.faultless (by simp [hfault])

private theorem exists_build_iff (revision : Nat) (sheetName : String)
    {columns : List Column} :
    (∃ s, build revision sheetName columns = .ok s) ↔
      (∀ column ∈ columns, Text.isBlankText column.id = false) ∧
        (columns.map Column.id).Nodup := by
  trans Column.firstFault? sheetName [] columns = none
  · unfold build
    split <;> simp [*]
  · simp [Column.firstFault?_eq_none_iff]

theorem ofJson_eq_ok_iff {revision : Nat} {value : Json} {s : Schema} :
    ofJson revision value = .ok s ↔
      Shape value s.sheetName s.columns ∧ s.revision = revision := by
  unfold ofJson Shape
  simp only [bind_eq_ok_iff, Json.recordFields_eq_ok_iff,
    IsRecord.exists_two_iff, Json.reads_asString.required,
    Column.reads_ofJson.list.withDefault]
  constructor
  · rintro ⟨name, list, hslots, sheetName, hname, columns, hlist, h⟩
    split at h
    next hbuild =>
      cases h
      obtain ⟨rfl, rfl, rfl⟩ := build_eq_ok_iff.mp hbuild
      exact ⟨⟨name, list, hslots, hname, hlist⟩, rfl⟩
    next => cases h
  · rintro ⟨⟨name, list, hslots, hname, hlist⟩, hrevision⟩
    refine ⟨name, list, hslots, _, hname, _, hlist, ?_⟩
    rw [build_eq_ok_iff.mpr ⟨rfl, rfl, hrevision⟩]
    rfl

theorem shape_toJson (s : Schema) : Shape s.toJson s.sheetName s.columns :=
  ⟨_, _, Json.isRecord_objectOfPresent
      [("sheetName", some (.string s.sheetName)),
       ("columns", some (.array (s.columns.map Column.toJson)))] (by simp),
    .given (.string _), .given (Json.isList_map Column.shape_toJson s.columns)⟩

theorem Shape.unique {value : Json} {name name' : String}
    {columns columns' : List Column} (h : Shape value name columns)
    (h' : Shape value name' columns') :
    name = name' ∧ columns = columns' := by
  obtain ⟨nameSlot, columnsSlot, hrecord, hname, hcolumns⟩ := h
  obtain ⟨nameSlot', columnsSlot', hrecord', hname', hcolumns'⟩ := h'
  rw [← Json.recordFields_eq_ok_iff] at hrecord hrecord'
  obtain ⟨rfl, rfl⟩ : nameSlot = nameSlot' ∧ columnsSlot = columnsSlot' := by
    simpa [hrecord] using hrecord'
  rw [← Json.reads_asString.required ""] at hname hname'
  rw [← Column.reads_ofJson.list.withDefault] at hcolumns hcolumns'
  exact ⟨Except.ok.inj (hname.symm.trans hname'),
    Except.ok.inj (hcolumns.symm.trans hcolumns')⟩

end Schema

/-! ## Reading what was written -/

/--
Schemas, cells and rows are read back as they were written.  A value of the
shape of a schema is read, as what it shows, exactly when the ids of its columns
are not blank and differ.
-/
theorem table_json_round_trip :
    (∀ (s : Schema) (revision : Nat),
        Schema.ofJson revision s.toJson = .ok (s.stamp revision)) ∧
      (∀ c : Cell, Cell.ofJson c.toJson = .ok c) ∧
      (∀ d : RowData, d.InRange → RowData.ofJson d.toJson = .ok d) ∧
      ∀ (value : Json) (sheetName : String) (columns : List Column),
        Schema.Shape value sheetName columns → ∀ revision : Nat,
          ((∃ s, Schema.ofJson revision value = .ok s) ↔
            (∀ column ∈ columns, Text.isBlankText column.id = false) ∧
              (columns.map Column.id).Nodup) ∧
          ∀ s, Schema.ofJson revision value = .ok s →
            s.sheetName = sheetName ∧ s.columns = columns := by
  refine ⟨fun s revision => Schema.ofJson_eq_ok_iff.mpr ⟨s.shape_toJson, rfl⟩,
    fun c => (Cell.reads_ofJson _ _).mpr c.shape_toJson,
    fun d hrange =>
      (RowData.reads_ofJson _ _).mpr (RowData.shape_toJson hrange),
    fun value sheetName columns hshape revision => ?_⟩
  have hshown (s : Schema) (h : Schema.ofJson revision value = .ok s) :
      s.sheetName = sheetName ∧ s.columns = columns :=
    (Schema.ofJson_eq_ok_iff.mp h).1.unique hshape
  refine ⟨?_, hshown⟩
  rw [← Schema.exists_build_iff revision sheetName]
  refine exists_congr fun s => ?_
  rw [Schema.build_eq_ok_iff, Schema.ofJson_eq_ok_iff]
  constructor
  · rintro ⟨hread, hrevision⟩
    obtain ⟨hname, hcolumns⟩ := hread.unique hshape
    exact ⟨hname, hcolumns, hrevision⟩
  · rintro ⟨rfl, rfl, hrevision⟩
    exact ⟨hshape, hrevision⟩

def zeroRow : RowData :=
  ⟨some 0, .ofList [("code", ⟨"", some ""⟩), ("amount", .plain "2")]⟩

def twiceTheColumn : Json :=
  .object
    [("columns", .array [.object [("id", .string "code")],
      .array [.string "code"]]),
     ("note", .bool true),
     ("sheetName", .string "Orders")]

theorem table_json_round_trip_zeroRow :
    zeroRow.InRange ∧ RowData.ofJson zeroRow.toJson = .ok zeroRow ∧
      Schema.Shape twiceTheColumn "Orders" [.named "code", .named "code"] ∧
      ¬ ∃ s, Schema.ofJson 1 twiceTheColumn = .ok s := by
  have hrange : zeroRow.InRange := by
    intro id hid
    cases hid
    decide
  have hshape : Schema.Shape twiceTheColumn "Orders"
      [.named "code", .named "code"] :=
    ⟨some (.string "Orders"), _, Json.recordFields_eq_ok_iff.mp rfl,
      .given (.string _),
      .given ((Column.reads_ofJson.list _ _).mp rfl)⟩
  obtain ⟨-, -, hrow, hschema⟩ := table_json_round_trip
  refine ⟨hrange, hrow zeroRow hrange, hshape, fun hread => ?_⟩
  have hids := ((hschema _ _ _ hshape 1).1.mp hread).2
  exact absurd hids (by decide)

end ReportDesk
