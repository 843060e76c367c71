import ReportDesk.Proofs.Workbook.Coherent

/-!
# A table solved row by row

Solving a whole table shares one memory of counts and stores each row before
the next one is solved.  When no evaluation draws an identifier or looks at
another row of the table, none of this matters: each row is solved as it would
be on its own, and the rows may be solved one by one in any order.
-/

namespace ReportDesk

/-! ## Filing rows -/

namespace Store

def fileEach (row : RowId → Row) (ids : List RowId) (s : Store) : Store :=
  ids.foldl (fun s id => s.file id (row id)) s

private theorem fileEach_perm {row : RowId → Row} {table : String}
    {ids ids' : List RowId} (htable : ∀ id ∈ ids, (row id).table = table)
    (h : ids.Perm ids') (s : Store) :
    s.fileEach row ids = s.fileEach row ids' := by
  refine h.foldl_eq' (fun id hid id' hid' later => ?_) s
  by_cases hne : id = id'
  · rw [hne]
  · exact later.file_comm ((htable id' hid').trans (htable id hid).symm) hne

end Store

namespace Workbook

open Formula (DependencyCache Environment Faithful Turn batchTurns solveRow)

/-! ## Rows on their own -/

variable {session : Session} {base : Store} {table header : String}

def alone (session : Session) (base : Store) (header : String) (row : Row) :
    Formula.RowSolution :=
  (solveRow (session.environment base 0) .empty row header).1

def answer (session : Session) (base : Store) (header : String) (row : Row) :
    SolvedRow :=
  ⟨row.id,
    ((alone session base header row).result.toOption.getD []).map fun f =>
      (f.column, f.solvedText)⟩

/--
The row is solved as on its own with all rows of its table and all memories of
counts.
-/
def Steady (session : Session) (base : Store) (table header : String)
    (row : Row) : Prop :=
  ∀ env cache, (session.environment base 0).Beside env table →
    Faithful row.schema (cache.known row.schema) →
    (solveRow env cache row header).1.row =
        (alone session base header row).row ∧
      (solveRow env cache row header).1.result =
        (alone session base header row).result

private theorem steady_of_apart {env : Environment} {cache : DependencyCache}
    {row : Row} (hbeside : (session.environment base 0).Beside env table)
    (hcache : Faithful row.schema (cache.known row.schema))
    (hturns : ∀ turn ∈ batchTurns env cache row header,
      turn.Apart header table) :
    Steady session base table header row := by
  intro env' cache' hbeside' hcache'
  obtain ⟨hrow, hresult⟩ := Formula.solveRow_apart hbeside.symm hcache
    (Formula.faithful_empty row.schema) hturns
  obtain ⟨hrow', hresult'⟩ :=
    Formula.solveRow_apart (hbeside.symm.trans hbeside') hcache hcache' hturns
  exact ⟨hrow'.trans hrow.symm, hresult'.trans hresult.symm⟩

theorem alone_frame (session : Session) (base : Store) (header : String)
    (row : Row) :
    (alone session base header row).row.table = row.table ∧
      (alone session base header row).row.id = row.id := by
  obtain ⟨hschema, hid⟩ :=
    Formula.solveRow_frame (session.environment base 0) .empty row header
  exact ⟨congrArg Schema.sheetName hschema, hid⟩

/-! ## One row of a table -/

section One

variable {index : Nat} {cache : DependencyCache} {s later : Store} {row : Row}
  {rest : List Row}

theorem solveRows_stopped {error : Formula.Error} (table : String)
    (h : (solveRow (session.environment s index) cache row header).1.result =
      .error error)
    (rest : List Row) :
    (solveRows session table header index cache s (row :: rest)).store = s ∧
      (solveRows session table header index cache s (row :: rest)).result =
        .error ⟨[rowContext row table], .formula error⟩ := by
  have hcontext :
      rowContext (solveRow (session.environment s index) cache row header).1.row
      table = rowContext row table := by
    rw [rowContext, (Formula.solveRow_frame _ cache row header).2, rowContext]
  rw [solveRows]
  simp only [h, hcontext, and_self]

private theorem solveRows_cons_error {error : Formula.Error}
    (h : (solveRow (session.environment s index) cache row header).1.result =
      .error error) :
    ∃ failure,
      (solveRows session table header index cache s (row :: rest)).result =
        .error failure :=
  ⟨_, (solveRows_stopped table h rest).2⟩

variable (table rest) in
theorem solveRows_cons_ok {formulas : List Formula.ColumnFormula}
    (h : (solveRow (session.environment s index) cache row header).1.result =
      .ok formulas)
    (hupdate :
      s.update (solveRow (session.environment s index) cache row header).1.row =
      .ok later) :
    let solution := solveRow (session.environment s index) cache row header
    let whole := solveRows session table header index cache s (row :: rest)
    let others := solveRows session table header
      (index + 1) solution.2 later rest
    whole.store = others.store ∧
      whole.result = others.result.map
        (⟨solution.1.row.id,
          formulas.map fun f => (f.column, f.solvedText)⟩ :: ·) := by
  rw [solveRows]
  simp only [h, hupdate, and_self]

end One

/-! ## All rows of a table -/

def rowTurns (session : Session) (header : String) :
    Nat → DependencyCache → Store → List Row → List Turn
  | _, _, _, [] => []
  | index, cache, store, row :: rest =>
      let env := session.environment store index
      let (solution, cache') := solveRow env cache row header
      batchTurns env cache row header ++
        match solution.result, store.update solution.row with
        | .ok _, .ok later =>
          rowTurns session header (index + 1) cache' later rest
        | _, _ => []

structure Listed (table : String) (row : RowId → Row) (ids : List RowId) :
    Prop where
  id : ∀ id ∈ ids, (row id).id = some id
  table : ∀ id ∈ ids, (row id).table = table
  schema : ∀ id ∈ ids, ∀ id' ∈ ids,
      (row id).schema.revision = (row id').schema.revision →
    (row id).schema = (row id').schema

/-- Rows still to be solved, when the other tables are as they were at first. -/
structure Pending (base : Store) (table : String) (row : RowId → Row)
    (ids : List RowId) (s : Store) (cache : DependencyCache) : Prop where
  listed : Listed table row ids
  stored : ∀ id ∈ ids, (s.get? table id).isSome = true
  others : ∀ other ≠ table, base.rows other = s.rows other
  counts : ∀ id ∈ ids, Faithful (row id).schema (cache.known (row id).schema)

theorem Pending.next {row : RowId → Row} {id : RowId} {rest : List RowId}
    {s : Store} {cache : DependencyCache}
    (h : Pending base table row (id :: rest) s cache) {solved : Row}
    (htable : solved.table = table) (env : Environment) (header : String) :
    Pending base table row rest (s.file id solved)
      (solveRow env cache (row id) header).2 := by
  have hlater {id' : RowId} (hid : id' ∈ rest) : id' ∈ id :: rest :=
    List.mem_cons_of_mem _ hid
  have hmem : id ∈ id :: rest := List.mem_cons_self
  refine ⟨⟨fun id' hid => h.listed.id id' (hlater hid),
    fun id' hid => h.listed.table id' (hlater hid),
    fun id' hid id'' hid' =>
      h.listed.schema id' (hlater hid) id'' (hlater hid')⟩,
    fun id' hid => ?_, fun other hother => ?_, fun id' hid => ?_⟩
  · rw [Store.get?_file]
    split
    · rfl
    · exact h.stored id' (hlater hid)
  · rw [Store.rows_file_of_ne s (htable.symm ▸ hother), h.others other hother]
  · rw [Formula.cache_solveRow]
    exact (h.counts id hmem).known_parseColumns
      ((h.listed.table id' (hlater hid)).trans (h.listed.table id hmem).symm)
      (h.listed.schema id' (hlater hid) id hmem) (h.counts id' (hlater hid))

/--
Every row that gets its turn is solved as it would be on its own.  Either one of
them fails, or all are answered and filed.
-/
theorem solveRows_steady {row : RowId → Row} {ids : List RowId} {index : Nat}
    {cache : DependencyCache} {s : Store}
    (hpending : Pending base table row ids s cache)
    (hturns : ∀ turn ∈ rowTurns session header index cache s (ids.map row),
      turn.Apart header table) :
    let solution := solveRows session table header index cache s (ids.map row)
    ((∃ failure, solution.result = .error failure) ∧
        ∃ id ∈ ids, Steady session base table header (row id) ∧
          ∃ error, (alone session base header (row id)).result = .error error) ∨
      ((∀ id ∈ ids, Steady session base table header (row id) ∧
          ∃ formulas, (alone session base header (row id)).result =
            .ok formulas) ∧
        solution.result =
          .ok (ids.map fun id => answer session base header (row id)) ∧
        solution.store =
          s.fileEach (fun id =>
            (alone session base header (row id)).row) ids) := by
  induction ids generalizing index cache s with
  | nil => exact .inr ⟨fun id hid => absurd hid List.not_mem_nil, rfl, rfl⟩
  | cons id rest ih =>
      have hmem : id ∈ id :: rest := List.mem_cons_self
      have henv : (session.environment base 0).Beside
          (session.environment s index) table :=
        ⟨rfl, rfl, hpending.others⟩
      rw [List.map_cons, rowTurns] at hturns
      have hsteady : Steady session base table header (row id) :=
        steady_of_apart henv (hpending.counts id hmem) fun turn hturn =>
          hturns turn (List.mem_append_left _ hturn)
      obtain ⟨hrow, hresult⟩ := hsteady _ cache henv (hpending.counts id hmem)
      cases halone : (alone session base header (row id)).result with
      | error error =>
          rw [halone] at hresult
          exact .inl ⟨solveRows_cons_error hresult, id, hmem, hsteady,
            error, halone⟩
      | ok formulas =>
          obtain ⟨htable, hid⟩ := alone_frame session base header (row id)
          rw [hpending.listed.table id hmem] at htable
          rw [hpending.listed.id id hmem] at hid
          rw [halone] at hresult
          have hupdate :
              s.update (solveRow (session.environment s index) cache (row id)
                header).1.row =
                .ok (s.file id (alone session base header (row id)).row) := by
            rw [hrow]
            exact Store.update_of_get? hid
              (htable.symm ▸ hpending.stored id hmem)
          simp only [hresult, hupdate] at hturns
          obtain ⟨hstore, hanswers⟩ :=
            solveRows_cons_ok table (rest.map row) hresult hupdate
          rw [hrow, hid] at hanswers
          rw [List.map_cons]
          simp only
          rw [hstore, hanswers]
          have hanswer : answer session base header (row id) =
              ⟨some id, formulas.map fun f => (f.column, f.solvedText)⟩ := by
            rw [answer, hpending.listed.id id hmem, halone]
            rfl
          rcases ih (hpending.next htable _ header) fun turn hturn =>
              hturns turn (List.mem_append_right _ hturn) with
            ⟨⟨failure, hfailed⟩, id', hid', hothers⟩
              | ⟨hothers, hresults, hfiled⟩
          · rw [hfailed]
            exact .inl ⟨⟨failure, rfl⟩, id',
              List.mem_cons_of_mem _ hid', hothers⟩
          · rw [hresults, hfiled]
            refine .inr ⟨?_, ?_, rfl⟩
            · rw [List.forall_mem_cons]
              exact ⟨⟨hsteady, formulas, halone⟩, hothers⟩
            · rw [List.map_cons, hanswer]
              rfl

/-! ## One call for each row -/

private theorem solveTable_row {w : Workbook} {schema : Schema} {row : Row}
    {id : RowId} (hschema : w.schema table = .ok schema)
    (hrow : w.store.get? table id = some row) (hid : row.id = some id)
    (htable : row.table = table)
    (hsteady : Steady session base table header row)
    (hothers : ∀ other ≠ table, base.rows other = w.store.rows other)
    (source : IdSource) :
    let solution :=
      solveTable { session with ids := source } w table header (some id)
    (∀ error, (alone session base header row).result = .error error →
        ∃ failure, solution.result = .error failure) ∧
      ∀ formulas, (alone session base header row).result = .ok formulas →
        solution.result = .ok [answer session base header row] ∧
          solution.store =
            w.store.file id (alone session base header row).row := by
  have hrows : w.rows table (some id) = .ok [row] := by
    rw [rows, hschema]
    simp only [hrow]
  obtain ⟨hstore, hresult⟩ :=
    solveTable_of_rows { session with ids := source } header hrows
  simp only
  rw [hstore, hresult]
  have henv : (session.environment base 0).Beside
      (Session.environment { session with ids := source } w.store 0) table :=
    ⟨rfl, rfl, hothers⟩
  obtain ⟨hsolved, hformulas⟩ :=
    hsteady _ .empty henv (Formula.faithful_empty row.schema)
  obtain ⟨htable', hid'⟩ := alone_frame session base header row
  refine ⟨fun error halone => ?_, fun formulas halone => ?_⟩
  · exact solveRows_cons_error (hformulas.trans halone)
  · have hupdate : w.store.update (alone session base header row).row =
        .ok (w.store.file id (alone session base header row).row) := by
      refine Store.update_of_get? (hid'.trans hid) ?_
      rw [htable', htable, hrow]
      rfl
    rw [← hsolved] at hupdate
    obtain ⟨hstore', hresult'⟩ :=
      solveRows_cons_ok table [] (hformulas.trans halone) hupdate
    refine ⟨?_, ?_⟩
    · rw [hresult', hsolved, hid', answer, halone]
      rfl
    · rw [hstore', ← hsolved]
      rfl

def solveEach (session : Session) (table header : String) :
    Workbook → List (RowId × IdSource) →
      List (Except Failure (List SolvedRow)) × Workbook
  | w, [] => ([], w)
  | w, (id, source) :: rest =>
      let solution :=
        solveTable { session with ids := source } w table header (some id)
      let (results, final) :=
        solveEach session table header (w.withSolution solution) rest
      (solution.result :: results, final)

theorem solveEach_steady {w : Workbook} {schema : Schema} {row : RowId → Row}
    {calls : List (RowId × IdSource)} (hschema : w.schema table = .ok schema)
    (hnodup : (calls.map Prod.fst).Nodup)
    (hfiled : ∀ id ∈ calls.map Prod.fst, w.store.get? table id = some (row id) ∧
      (row id).id = some id ∧ (row id).table = table)
    (hothers : ∀ other ≠ table, base.rows other = w.store.rows other)
    (hsteady : ∀ id ∈ calls.map Prod.fst,
      Steady session base table header (row id) ∧
      ∃ formulas, (alone session base header (row id)).result = .ok formulas) :
    solveEach session table header w calls =
      (calls.map fun call => .ok [answer session base header (row call.1)],
        ⟨w.registry,
          w.store.fileEach (fun id => (alone session base header (row id)).row)
          (calls.map Prod.fst)⟩) := by
  induction calls generalizing w with
  | nil => rfl
  | cons call rest ih =>
      obtain ⟨id, source⟩ := call
      rw [List.map_cons, List.forall_mem_cons] at hfiled hsteady
      obtain ⟨⟨hrow, hid, htable⟩, hlater⟩ := hfiled
      obtain ⟨⟨hsteady, formulas, halone⟩, hlaterSteady⟩ := hsteady
      obtain ⟨hfresh, hnodup⟩ := List.nodup_cons.mp hnodup
      obtain ⟨hresult, hstore⟩ :=
        (solveTable_row hschema hrow hid htable hsteady hothers source).2
          formulas halone
      obtain ⟨htable', -⟩ := alone_frame session base header (row id)
      have hrest := ih (w := ⟨w.registry,
          w.store.file id (alone session base header (row id)).row⟩)
          hschema hnodup
        (fun id' hid' => ?_) (fun other hother => ?_) hlaterSteady
      · rw [solveEach]
        simp only [withSolution, hresult, hstore, hrest]
        rfl
      · obtain ⟨hrow', hfiled'⟩ := hlater id' hid'
        refine ⟨?_, hfiled'⟩
        rw [← hrow']
        exact Store.get?_file_of_ne _ fun h => hfresh (h.2 ▸ hid')
      · rw [hothers other hother]
        exact (Store.rows_file_of_ne _
          ((htable'.trans htable).symm ▸ hother)).symm

/-! ## The table as a whole -/

def tableTurns (session : Session) (w : Workbook) (table header : String) :
    List Turn :=
  match w.rows table none with
  | .error _ => []
  | .ok rows => rowTurns session header 0 .empty w.store rows

theorem exists_pending {w : Workbook} {schema : Schema}
    (hcoherent : w.store.Coherent) (hschema : w.schema table = .ok schema) :
    let ids := (w.store.rows table).keys
    ∃ row : RowId → Row, w.rows table none = .ok (ids.map row) ∧
      (∀ id ∈ ids, w.store.get? table id = some (row id)) ∧
      Pending w.store table row ids w.store .empty := by
  intro ids
  let row (id : RowId) : Row := (w.store.get? table id).getD (.new schema)
  have hstored : ∀ id ∈ ids, w.store.get? table id = some (row id) := by
    intro id hid
    obtain ⟨stored, hstored⟩ :=
      Option.isSome_iff_exists.mp (SortedMap.mem_keys.mp hid)
    simp [row, Store.get?, hstored]
  have hall : w.store.all table = ids.map row := by
    rw [Store.all, ← SortedMap.filterMap_keys, ← List.filterMap_eq_map]
    exact List.filterMap_congr hstored
  refine ⟨row, ?_, hstored,
    ⟨⟨fun id hid => ?_, fun id hid => ?_, fun id hid id' hid' => ?_⟩,
      fun id hid => SortedMap.mem_keys.mp hid, fun _ _ => rfl,
      fun id _ => Formula.faithful_empty (row id).schema⟩⟩
  · rw [rows, hschema]
    simp only [hall]
  · exact (hcoherent.filed (hstored id hid)).2
  · exact (hcoherent.filed (hstored id hid)).1
  · exact hcoherent.revisions (hstored id hid) (hstored id' hid')

/--
When solving the table draws no identifier and follows no relation into the
table itself, it succeeds exactly when each row can be solved by a call of its
own.  Calls for all the rows, one after the other in any order, then answer for
each row what the one call for the table answers, and leave the same workbook.
-/
theorem solveTable_row_by_row {w : Workbook} {schema : Schema}
    (hcoherent : w.store.Coherent) (hschema : w.schema table = .ok schema)
    (hturns : ∀ turn ∈ tableTurns session w table header,
      turn.Apart header table) :
    let whole := solveTable session w table header none
    let ids := (w.store.rows table).keys
    (∀ source : RowId → IdSource, (∃ solved, whole.result = .ok solved) ↔
        ∀ id ∈ ids, ∃ solved,
          (solveTable { session with ids := source id } w table header
            (some id)).result = .ok solved) ∧
      ((∃ solved, whole.result = .ok solved) → ∃ answer : RowId → SolvedRow,
        (∀ id ∈ ids, (answer id).id = some id) ∧
        whole.result = .ok (ids.map answer) ∧
        ∀ calls : List (RowId × IdSource), (calls.map Prod.fst).Perm ids →
          solveEach session table header w calls =
            (calls.map fun call =>
              .ok [answer call.1], w.withSolution whole)) := by
  intro whole ids
  obtain ⟨row, hrows, hstored, hpending⟩ := exists_pending hcoherent hschema
  rw [tableTurns, hrows] at hturns
  obtain ⟨hstore, hresult⟩ := solveTable_of_rows session header hrows
  change whole.store = _ at hstore
  change whole.result = _ at hresult
  have hone {id : RowId} (hid : id ∈ ids)
      (hsteady : Steady session w.store table header (row id))
        (source : IdSource) :=
    solveTable_row hschema (hstored id hid) (hpending.listed.id id hid)
      (hpending.listed.table id hid) hsteady (fun _ _ => rfl) source
  rcases solveRows_steady hpending hturns with
    ⟨⟨failure, hfailed⟩, id, hid, hsteady, error, halone⟩
      | ⟨hsteady, hanswers, hfinal⟩
  · rw [← hresult] at hfailed
    have hnot : ¬ ∃ solved, whole.result = .ok solved := by
      rintro ⟨solved, hsolved⟩
      rw [hfailed] at hsolved
      cases hsolved
    refine ⟨fun source => iff_of_false hnot fun hsolved => ?_,
      fun h => absurd h hnot⟩
    obtain ⟨failure', hfailed'⟩ := (hone hid hsteady (source id)).1 error halone
    obtain ⟨solved, hsolved⟩ := hsolved id hid
    rw [hfailed'] at hsolved
    cases hsolved
  · rw [← hresult] at hanswers
    refine ⟨fun source => iff_of_true ⟨_, hanswers⟩ fun id hid => ?_, fun _ =>
      ⟨fun id => answer session w.store header (row id),
        hpending.listed.id, hanswers,
        fun calls hperm => ?_⟩⟩
    · obtain ⟨hsteady, formulas, halone⟩ := hsteady id hid
      exact ⟨_, ((hone hid hsteady (source id)).2 formulas halone).1⟩
    · have hnodup : (calls.map Prod.fst).Nodup :=
        hperm.nodup_iff.mpr (SortedMap.nodup_keys _)
      have hmem {id : RowId} (hid : id ∈ calls.map Prod.fst) : id ∈ ids :=
        hperm.mem_iff.mp hid
      have hfiled : ∀ id ∈ calls.map Prod.fst,
          w.store.get? table id = some (row id) ∧
          (row id).id = some id ∧ (row id).table = table := fun id hid =>
        ⟨hstored id (hmem hid), hpending.listed.id id (hmem hid),
          hpending.listed.table id (hmem hid)⟩
      have htable : ∀ id ∈ calls.map Prod.fst,
          (alone session w.store header (row id)).row.table = table :=
        fun id hid => (alone_frame session w.store header (row id)).1.trans
          (hfiled id hid).2.2
      rw [solveEach_steady hschema hnodup hfiled (fun _ _ => rfl) fun id hid =>
        hsteady id (hmem hid), Store.fileEach_perm htable hperm, withSolution,
          hstore, hfinal]

/-! ### Two rows that name one parent -/

def linkedRows : WorkbookFile where
  schemas := [⟨"P", [.named "title"], 0, rfl⟩,
    ⟨"T", [.named "P", .named "memo",
      Formula.Session.column "name" "RELATION(P,title.code)-%memo.code"],
        0, by decide⟩]
  rows := .ofList
    [("P", [⟨some 1, .ofList [("title", .plain "Alpha")]⟩]),
     ("T", [⟨some 2, .ofList [("P", .plain "1"), ("memo", .plain "x")]⟩,
       ⟨some 3, .ofList [("P", .plain "1"), ("memo", .plain "y")]⟩])]

def linked : Workbook :=
  match ofFile linkedRows with
  | .ok w => w
  | .error _ => .empty

def firstSession : Session := ⟨.standard, ⟨2024, 1, 1⟩, ⟨0⟩⟩

private theorem coherent_linked : linked.store.Coherent :=
  coherent_loaded linkedRows

private theorem apart_linked :
    ∀ turn ∈ tableTurns firstSession linked "T" Header.defaultValue,
    turn.Apart Header.defaultValue "T" := by
  decide +kernel

/--
The second row is solved first, and the identifiers come from other sources.
-/
theorem solveTable_row_by_row_linked :
    (solveTable firstSession linked "T" Header.defaultValue none).result =
        .ok [⟨some 2, [("name", "Alpha-x")]⟩, ⟨some 3, [("name", "Alpha-y")]⟩] ∧
      solveEach firstSession "T" Header.defaultValue linked
        [(3, ⟨7⟩), (2, ⟨8⟩)] =
        ([.ok [⟨some 3, [("name", "Alpha-y")]⟩],
          .ok [⟨some 2, [("name", "Alpha-x")]⟩]],
          linked.withSolution
            (solveTable firstSession linked "T" Header.defaultValue none)) := by
  have hschema : (linked.schema "T").toOption.isSome = true := by decide +kernel
  have hkeys : (linked.store.rows "T").keys = [2, 3] := by decide +kernel
  have hsolved :
      (solveTable firstSession linked "T"
        Header.defaultValue none).result.toOption =
      some [⟨some 2, [("name", "Alpha-x")]⟩,
        ⟨some 3, [("name", "Alpha-y")]⟩] := by
    decide +kernel
  cases hloaded : linked.schema "T" with
  | error error => simp [hloaded, Except.toOption] at hschema
  | ok schema =>
      cases hwhole :
        (solveTable firstSession linked "T" Header.defaultValue none).result
        with
      | error failure => simp [hwhole, Except.toOption] at hsolved
      | ok solved =>
          obtain ⟨-, hone⟩ :=
            solveTable_row_by_row coherent_linked hloaded apart_linked
          obtain ⟨answer, -, hanswers, hcalls⟩ := hone ⟨solved, hwhole⟩
          rw [hkeys] at hanswers hcalls
          rw [hanswers] at hsolved hwhole
          have hboth : answer 2 = ⟨some 2, [("name", "Alpha-x")]⟩ ∧
              answer 3 = ⟨some 3, [("name", "Alpha-y")]⟩ := by
            simpa [Except.toOption] using hsolved
          obtain ⟨htwo, hthree⟩ := hboth
          rw [hcalls [(3, ⟨7⟩), (2, ⟨8⟩)] (by decide), ← hwhole]
          simp [htwo, hthree]

end Workbook

end ReportDesk
