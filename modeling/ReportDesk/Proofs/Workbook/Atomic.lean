import ReportDesk.Proofs.Workbook.RowByRow

/-!
# Rows solved wholly or not at all

The rows of a table are solved by ascending id, each on the store as the rows
before it have left it.  A row that fails ends the solving: the rows before it
are stored as a successful batch leaves them, and all others as they were.
-/

namespace ReportDesk

namespace Workbook

open Formula (DependencyCache Environment Faithful RowSolution solveRow)

/-! ## Turns of rows -/

structure RowTurn where
  id : RowId
  solution : RowSolution

def RowTurn.report (turn : RowTurn) : SolvedRow :=
  ⟨some turn.id,
    (turn.solution.result.toOption.getD []).map fun f =>
      (f.column, f.solvedText)⟩

def afterTurns (s : Store) (done : List RowTurn) : Store :=
  done.foldl (fun s turn => s.file turn.id turn.solution.row) s

variable {session : Session} {base s : Store} {table header : String}
  {row : RowId → Row} {turn : RowTurn} {done : List RowTurn} {ids : List RowId}
  {index : Nat} {cache : DependencyCache}

theorem afterTurns_cons (s : Store) (turn : RowTurn) (done : List RowTurn) :
    afterTurns s (turn :: done) =
      afterTurns (s.file turn.id turn.solution.row) done := rfl

private theorem afterTurns_append (s : Store) (done done' : List RowTurn) :
    afterTurns s (done ++ done') = afterTurns (afterTurns s done) done' := by
  simp [afterTurns]

private theorem lastId_afterTurns (s : Store) (done : List RowTurn) :
    (afterTurns s done).lastId = s.lastId := by
  induction done generalizing s with
  | nil => rfl
  | cons turn rest ih =>
      rw [afterTurns_cons, ih]
      rfl

private theorem get?_afterTurns_of_not_mem
    (htable : ∀ turn ∈ done, turn.solution.row.table = table)
    {other : String} {id : RowId}
    (h : ¬ (other = table ∧ id ∈ done.map RowTurn.id))
    (s : Store) : (afterTurns s done).get? other id = s.get? other id := by
  induction done generalizing s with
  | nil => rfl
  | cons turn rest ih =>
      rw [List.forall_mem_cons] at htable
      rw [List.map_cons, List.mem_cons] at h
      rw [afterTurns_cons, ih htable.2 (by tauto)]
      refine Store.get?_file_of_ne _ ?_
      rw [htable.1]
      tauto

private theorem get?_afterTurns_of_mem
    (htable : ∀ turn ∈ done, turn.solution.row.table = table)
    (hnodup : (done.map RowTurn.id).Nodup) (hmem : turn ∈ done) (s : Store) :
    (afterTurns s done).get? table turn.id = some turn.solution.row := by
  obtain ⟨before, after, rfl⟩ := List.append_of_mem hmem
  rw [List.map_append, List.map_cons, List.nodup_middle, List.nodup_cons,
    List.mem_append, not_or] at hnodup
  obtain ⟨⟨-, hafter⟩, -⟩ := hnodup
  have hlater : ∀ turn ∈ after, turn.solution.row.table = table :=
    fun later hlater => htable later (by simp [hlater])
  rw [afterTurns_append, afterTurns_cons,
    get?_afterTurns_of_not_mem hlater (fun h => hafter h.2), ← htable turn hmem,
    Store.get?_file_self]

/--
The store with new rows for some ids of the table, and nothing else changed.
-/
structure Replaced (table : String) (s later : Store) (done : List RowTurn) :
    Prop where
  solved : ∀ turn ∈ done, later.get? table turn.id = some turn.solution.row
  others : ∀ other id, ¬(other = table ∧ id ∈ done.map RowTurn.id) →
    later.get? other id = s.get? other id
  ids : ∀ other id,
    (later.get? other id).map Row.id = (s.get? other id).map Row.id
  lastId : later.lastId = s.lastId

theorem replaced_afterTurns {s : Store}
    (htable : ∀ turn ∈ done, turn.solution.row.table = table)
    (hids : ∀ turn ∈ done,
      (s.get? table turn.id).map Row.id = some turn.solution.row.id)
    (hnodup : (done.map RowTurn.id).Nodup) :
    Replaced table s (afterTurns s done) done := by
  have hsolved : ∀ turn ∈ done, (afterTurns s done).get? table turn.id =
      some turn.solution.row :=
    fun turn hturn => get?_afterTurns_of_mem htable hnodup hturn s
  have hothers : ∀ other id, ¬(other = table ∧ id ∈ done.map RowTurn.id) →
      (afterTurns s done).get? other id = s.get? other id := fun other id h =>
    get?_afterTurns_of_not_mem htable h s
  refine ⟨hsolved, hothers, fun other id => ?_, lastId_afterTurns s done⟩
  by_cases hturn : other = table ∧ id ∈ done.map RowTurn.id
  · obtain ⟨rfl, hid⟩ := hturn
    obtain ⟨turn, hturn, rfl⟩ := List.mem_map.mp hid
    rw [hsolved turn hturn, hids turn hturn]
    rfl
  · rw [hothers other id hturn]

/-! ## Rows in turn -/

def solving (session : Session) (header : String)
    (stored : RowId → Option Row) : Run Store RowId RowTurn where
  item := RowTurn.id
  after := afterTurns
  makes index s turn := ∃ row formulas, stored turn.id = some row ∧
    turn.solution =
      (solveRow (session.environment s index) .empty row header).1 ∧
    turn.solution.result = .ok formulas
  after_nil _ := rfl
  after_append := afterTurns_append

/--
Each row is solved whole, from the row as it was stored and on the store as the
rows before it have left it.
-/
def InTurn (session : Session) (header : String) (stored : RowId → Option Row)
    (index : Nat) (s : Store) (done : List RowTurn) : Prop :=
  (solving session header stored).Makes index s done

/--
The solving ends behind the last row, or before one that fails on the store so
far.
-/
def Ends (session : Session) (table header : String)
    (stored : RowId → Option Row) (index : Nat) (s : Store) (ids : List RowId)
    (done : List RowTurn) :
    Except Failure (List SolvedRow) → Prop :=
  (solving session header stored).Ends
    (fun index s failing failure => ∃ row error, stored failing = some row ∧
      (solveRow (session.environment s index) .empty row header).1.result =
        .error error ∧
      failure = ⟨[rowContext row table], .formula error⟩)
    (fun done => done.map RowTurn.report) index s ids done

section Turns

variable {stored : RowId → Option Row}

theorem InTurn.frame (h : InTurn session header stored index s done)
    (hmem : turn ∈ done) :
    ∃ old, stored turn.id = some old ∧ turn.solution.row.schema = old.schema ∧
      turn.solution.row.id = old.id := by
  obtain ⟨before, after, hsplit⟩ := List.append_of_mem hmem
  obtain ⟨old, formulas, hstored, hturn, -⟩ := h before turn after hsplit
  obtain ⟨hschema, hid⟩ := Formula.solveRow_frame
    (session.environment (afterTurns s before) (index + before.length)) .empty
    old header
  change turn.solution = (solveRow (session.environment (afterTurns s before)
    (index + before.length)) .empty old header).1 at hturn
  rw [← hturn] at hschema hid
  exact ⟨old, hstored, hschema, hid⟩

theorem inTurn_cons : InTurn session header stored index s (turn :: done) ↔
    (∃ row formulas, stored turn.id = some row ∧
      turn.solution =
        (solveRow (session.environment s index) .empty row header).1 ∧
      turn.solution.result = .ok formulas) ∧
    InTurn session header stored (index + 1)
      (s.file turn.id turn.solution.row) done :=
  Run.makes_cons

private theorem solveRows_of_turn {rest : List RowId}
    {formulas : List Formula.ColumnFormula} (hturn : turn.solution =
      (solveRow (session.environment s index) .empty (row turn.id) header).1)
    (hresult : turn.solution.result = .ok formulas)
    (hpending : Pending base table row (turn.id :: rest) s cache) :
    ∃ cache',
      Pending base table row rest (s.file turn.id turn.solution.row) cache' ∧
      let all := solveRows session table header index cache s
        ((turn.id :: rest).map row)
      let later := solveRows session table header (index + 1) cache'
        (s.file turn.id turn.solution.row) (rest.map row)
      all.store = later.store ∧
        all.result = later.result.map (turn.report :: ·) := by
  have hmem : turn.id ∈ turn.id :: rest := List.mem_cons_self
  have hsolution :
      (solveRow (session.environment s index) cache (row turn.id) header).1 =
        turn.solution :=
    (Formula.solveRow_congr _ (hpending.counts _ hmem)
      (Formula.faithful_empty _) header).trans hturn.symm
  obtain ⟨hschema, hid⟩ := Formula.solveRow_frame
    (session.environment s index) cache (row turn.id) header
  rw [hsolution] at hschema hid
  rw [hpending.listed.id _ hmem] at hid
  have htable : turn.solution.row.table = table :=
    (congrArg Schema.sheetName hschema).trans (hpending.listed.table _ hmem)
  have hupdate :=
    Store.update_of_get? hid (htable.symm ▸ hpending.stored _ hmem)
  have hreport : turn.report =
      ⟨some turn.id, formulas.map fun f => (f.column, f.solvedText)⟩ := by
    rw [RowTurn.report, hresult]
    rfl
  rw [← hsolution] at hresult hupdate
  obtain ⟨hstore, hanswers⟩ :=
    solveRows_cons_ok table (rest.map row) hresult hupdate
  rw [hsolution] at hstore hanswers
  refine ⟨_, hpending.next htable (session.environment s index) header,
    hstore, hanswers.trans ?_⟩
  rw [hid, hreport]

/--
The rows behind those that had their turns are solved on the store that these
have left.
-/
theorem solveRows_of_inTurn (h : InTurn session header stored index s done)
    {rest : List RowId}
    (hstored : ∀ id ∈ done.map RowTurn.id ++ rest, stored id = some (row id))
    (hpending : Pending base table row (done.map RowTurn.id ++ rest) s cache) :
    ∃ cache', Pending base table row rest (afterTurns s done) cache' ∧
      let all := solveRows session table header index cache s
        ((done.map RowTurn.id ++ rest).map row)
      let later := solveRows session table header (index + done.length) cache'
        (afterTurns s done) (rest.map row)
      all.store = later.store ∧
        all.result = later.result.map (done.map RowTurn.report ++ ·) := by
  induction done generalizing index s cache with
  | nil =>
      refine ⟨cache, hpending, rfl, ?_⟩
      change _ = (solveRows session table header index cache s
        (rest.map row)).result.map id
      rw [Except.map_id]
      rfl
  | cons turn done ih =>
      obtain ⟨⟨old, formulas, hold, hturn, hresult⟩, hrest⟩ := inTurn_cons.mp h
      rw [List.map_cons, List.cons_append] at hstored hpending
      rw [List.forall_mem_cons] at hstored
      obtain rfl : row turn.id = old :=
        Option.some.inj (hstored.1.symm.trans hold)
      obtain ⟨cache', hpending', hstore, hanswers⟩ :=
        solveRows_of_turn hturn hresult hpending
      obtain ⟨cache'', hpending'', hlater, hanswers'⟩ :=
        ih hrest hstored.2 hpending'
      rw [Nat.add_assoc, Nat.add_comm 1, ← afterTurns_cons] at hlater hanswers'
      refine ⟨cache'', hpending'', hstore.trans hlater, hanswers.trans ?_⟩
      rw [hanswers']
      generalize (solveRows session table header _ cache'' _
        (rest.map row)).result = later
      cases later with
      | error failure => rfl
      | ok answers => rfl

theorem solveRows_of_ends {result : Except Failure (List SolvedRow)}
    (h : InTurn session header stored index s done)
    (hends : Ends session table header stored index s ids done result)
    (hstored : ∀ id ∈ ids, stored id = some (row id))
    (hpending : Pending base table row ids s cache) :
    (solveRows session table header index cache s (ids.map row)).store =
        afterTurns s done ∧
      (solveRows session table header index cache s (ids.map row)).result =
        result := by
  cases hends with
  | finished hids =>
      change ids = done.map RowTurn.id at hids
      rw [← List.append_nil (done.map RowTurn.id)] at hids
      subst hids
      obtain ⟨cache', -, hstore, hresult⟩ :=
        solveRows_of_inTurn h hstored hpending
      rw [hstore, hresult]
      exact ⟨rfl, congrArg Except.ok (List.append_nil _)⟩
  | @stopped failing rest failure hids hfails =>
      change ids = done.map RowTurn.id ++ failing :: rest at hids
      subst hids
      obtain ⟨old, error, hold, hfails, rfl⟩ := hfails
      change (solveRow
        (session.environment (afterTurns s done) _) _ _ _).1.result =
          _ at hfails
      obtain ⟨cache', hpending', hstore, hresult⟩ :=
        solveRows_of_inTurn h hstored hpending
      obtain rfl : row failing = old :=
        Option.some.inj ((hstored failing (by simp)).symm.trans hold)
      rw [Formula.solveRow_congr _ (Formula.faithful_empty _)
        (hpending'.counts failing List.mem_cons_self) header] at hfails
      obtain ⟨hleft, hfailure⟩ := solveRows_stopped table hfails (rest.map row)
      rw [hstore, hresult, List.map_cons, hfailure]
      exact ⟨hleft, rfl⟩

end Turns

theorem exists_turns (session : Session) (header : String) (index : Nat)
    {stored : RowId → Option Row}
    (hstored : ∀ id ∈ ids, stored id = some (row id))
    (hpending : Pending base table row ids s cache) :
    let solution := solveRows session table header index cache s (ids.map row)
    ∃ done, InTurn session header stored index s done ∧
      solution.store = afterTurns s done ∧
      Ends session table header stored index s ids done solution.result := by
  have hsteps (index : Nat) (s : Store) : ∀ id ∈ ids,
      (∃ turn, (solving session header stored).item turn = id ∧
          (solving session header stored).makes index s turn) ∨
        ∃ failure : Failure, ∃ row error, stored id = some row ∧
          (solveRow (session.environment s index) .empty row header).1.result =
            .error error ∧
          failure = ⟨[rowContext row table], .formula error⟩ := by
    intro id hid
    let solution :=
      (solveRow (session.environment s index) .empty (row id) header).1
    cases hresult : solution.result with
    | error error => exact .inr ⟨_, row id, error, hstored id hid, hresult, rfl⟩
    | ok formulas =>
        exact .inl ⟨⟨id, solution⟩, rfl, row id, formulas, hstored id hid,
          rfl, hresult⟩
  obtain ⟨done, result, hturns, hends⟩ :=
    Run.exists_makes _ (fun done => done.map RowTurn.report) hsteps index s
  obtain ⟨hstore, hresult⟩ := solveRows_of_ends hturns hends hstored hpending
  exact ⟨done, hturns, hstore, hresult ▸ hends⟩

/-! ## Selected rows -/

/--
The ids of the rows to be solved: all those of the table, or the one asked for.
-/
def selected (w : Workbook) (table : String) (id : Option RowId) : List RowId :=
  (w.store.rows table).keys.filter fun i => id.all fun wanted => i == wanted

theorem Pending.subset {ids' : List RowId}
    (h : Pending base table row ids s cache)
    (hsub : ids' ⊆ ids) : Pending base table row ids' s cache where
  listed := ⟨fun id hid => h.listed.id id (hsub hid),
    fun id hid => h.listed.table id (hsub hid),
    fun id hid id' hid' => h.listed.schema id (hsub hid) id' (hsub hid')⟩
  stored := fun id hid => h.stored id (hsub hid)
  others := h.others
  counts := fun id hid => h.counts id (hsub hid)

private theorem selected_none (w : Workbook) (table : String) :
    selected w table none = (w.store.rows table).keys := by
  simp [selected]

private theorem selected_some {w : Workbook} {id : RowId} {old : Row}
    (h : w.store.get? table id = some old) :
    selected w table (some id) = [id] := by
  have hmem : id ∈ (w.store.rows table).keys :=
    SortedMap.mem_keys.mpr (Option.isSome_iff_exists.mpr ⟨old, h⟩)
  have hfilter : selected w table (some id) =
      (w.store.rows table).keys.filter fun i => i == id := rfl
  rw [hfilter, List.filter_beq,
    List.count_eq_one_of_mem (SortedMap.nodup_keys _) hmem]
  rfl

theorem pairwise_selected (w : Workbook) (table : String) (id : Option RowId) :
    (selected w table id).Pairwise (· < ·) := by
  have hkeys : (w.store.rows table).keys.Pairwise (· < ·) :=
    (SortedMap.pairwise_keys _).imp Nat.compare_eq_lt.mp
  exact hkeys.sublist List.filter_sublist

private theorem exists_selected {w : Workbook} (hcoherent : w.store.Coherent)
    {id : Option RowId} {listed : List Row}
    (hrows : w.rows table id = .ok listed) :
    ∃ row : RowId → Row, listed = (selected w table id).map row ∧
      (∀ i ∈ selected w table id, w.store.get? table i = some (row i)) ∧
      Pending w.store table row (selected w table id) w.store .empty := by
  cases hschema : w.schema table with
  | error error =>
      unfold rows at hrows
      rw [hschema] at hrows
      cases hrows
  | ok schema =>
      obtain ⟨row, hall, hstored, hpending⟩ := exists_pending hcoherent hschema
      have hsub : selected w table id ⊆ (w.store.rows table).keys :=
        List.filter_subset_self _
      refine ⟨row, ?_, fun i hi => hstored i (hsub hi), hpending.subset hsub⟩
      cases id with
      | none =>
          rw [selected_none]
          exact Except.ok.inj (hrows.symm.trans hall)
      | some id =>
          simp only [rows, hschema] at hrows
          split at hrows
          next old hold =>
            cases hrows
            have hmem : id ∈ (w.store.rows table).keys :=
              hsub (by simp [selected_some hold])
            rw [selected_some hold, List.map_singleton,
              ← Option.some.inj (hold.symm.trans (hstored id hmem))]
          next => cases hrows

/-! ## The table as a whole -/

theorem exists_turns_of_rows {w : Workbook} (hcoherent : w.store.Coherent)
    (session : Session) (header : String) {id : Option RowId}
    {listed : List Row} (hrows : w.rows table id = .ok listed) :
    let solution := solveTable session w table header id
    ∃ done, InTurn session header (w.store.get? table) 0 w.store done ∧
      solution.store = afterTurns w.store done ∧
      Replaced table w.store solution.store done ∧
      Ends session table header (w.store.get? table) 0 w.store
        (selected w table id) done
        solution.result := by
  obtain ⟨row, rfl, hstored, hpending⟩ := exists_selected hcoherent hrows
  obtain ⟨hstore, hresult⟩ := solveTable_of_rows session header hrows
  obtain ⟨done, hturns, hdone, hends⟩ :=
    exists_turns session header 0 hstored hpending
  simp only
  rw [hstore, hresult, hdone]
  have hnodup : (done.map RowTurn.id).Nodup :=
    ((pairwise_selected w table id).imp Nat.ne_of_lt).sublist
      (Run.Ends.map_prefix hends).sublist
  refine ⟨done, hturns, rfl,
    replaced_afterTurns (fun turn hturn => ?_) (fun turn hturn => ?_) hnodup,
    hends⟩
  · obtain ⟨old, hold, hschema, -⟩ := hturns.frame hturn
    exact (congrArg Schema.sheetName hschema).trans (hcoherent.filed hold).1
  · obtain ⟨old, hold, -, hid⟩ := hturns.frame hturn
    rw [hold, hid]
    rfl

theorem exists_stored_before {w : Workbook} (hcoherent : w.store.Coherent)
    {id : Option RowId} {other : String} {i : RowId} {later : Row}
    (hget : (solveTable session w table header id).store.get? other i =
      some later) :
    ∃ old, w.store.get? other i = some old ∧ later.schema = old.schema ∧
      later.id = old.id := by
  cases hrows : w.rows table id with
  | error failure =>
      rw [solveTable, hrows] at hget
      exact ⟨later, hget, rfl, rfl⟩
  | ok listed =>
      obtain ⟨done, hturns, -, hreplaced, -⟩ :=
        exists_turns_of_rows hcoherent session header hrows
      by_cases hturn : other = table ∧ i ∈ done.map RowTurn.id
      · obtain ⟨rfl, hid⟩ := hturn
        obtain ⟨turn, hmem, rfl⟩ := List.mem_map.mp hid
        obtain rfl : turn.solution.row = later :=
          Option.some.inj ((hreplaced.solved turn hmem).symm.trans hget)
        exact hturns.frame hmem
      · exact ⟨later,
          (hreplaced.others other i hturn).symm.trans hget, rfl, rfl⟩

theorem coherent_solveTable {w : Workbook} (h : w.store.Coherent)
    (session : Session) (table header : String) (id : Option RowId) :
    (solveTable session w table header id).store.Coherent := by
  constructor
  · intro other i row hget
    obtain ⟨old, hold, hschema, hid⟩ := exists_stored_before h hget
    rw [Row.table, hschema, hid]
    exact h.filed hold
  · intro other i i' row row' hget hget' hrevision
    obtain ⟨old, hold, hschema, -⟩ := exists_stored_before h hget
    obtain ⟨old', hold', hschema', -⟩ := exists_stored_before h hget'
    rw [hschema, hschema'] at hrevision ⊢
    exact h.revisions hold hold' hrevision

theorem registered_solveTable {w : Workbook} (h : Registered w.registry w.store)
    (session : Session) (table header : String) (id : Option RowId) :
    Registered w.registry (solveTable session w table header id).store := by
  intro other i row hget
  obtain ⟨old, hold, hschema, hid⟩ := exists_stored_before h.coherent hget
  rw [Row.table, hschema, hid]
  exact h other i old hold

/-! ## Up to the first failure -/

private theorem filter_lt_of_split {failing : RowId} {before after : List RowId}
    (hsorted : ids.Pairwise (· < ·)) (h : ids = before ++ failing :: after) :
    ids.filter (fun i => decide (i < failing)) = before := by
  subst h
  obtain ⟨-, hafter, hbefore⟩ := List.pairwise_append.mp hsorted
  have hsmaller : ∀ i ∈ before, decide (i < failing) = true := fun i hi =>
    decide_eq_true (hbefore i hi failing List.mem_cons_self)
  have hgreater : ∀ i ∈ after, ¬ decide (i < failing) = true := fun i hi hlt =>
    absurd (List.rel_of_pairwise_cons hafter hi)
      (Nat.lt_asymm (of_decide_eq_true hlt))
  rw [List.filter_append, List.filter_eq_self.mpr hsmaller,
    List.filter_cons_of_neg (by simp), List.filter_eq_nil_iff.mpr hgreater,
    List.append_nil]

/--
When solving a table fails on a row, the rows with smaller ids that were to be
solved are stored as successful batches leave them, and everything else is
stored as before.  When it succeeds, all rows to be solved are stored so.
-/
theorem solveTable_atomic {w : Workbook} (hcoherent : w.store.Coherent)
    (session : Session) (table header : String) (id : Option RowId) :
    let solution := solveTable session w table header id
    let ids := selected w table id
    ∃ done : List RowTurn,
        InTurn session header (w.store.get? table) 0 w.store done ∧
      Replaced table w.store solution.store done ∧
      (∀ answers, solution.result = .ok answers →
        done.map RowTurn.id = ids ∧ answers = done.map RowTurn.report) ∧
      ∀ failure, solution.result = .error failure →
        (w.rows table id = .error failure ∧ done = []) ∨
          ∃ failing ∈ ids,
              done.map RowTurn.id = ids.filter (fun i => i < failing) ∧
            ∃ row error, w.store.get? table failing = some row ∧
              (solveRow (session.environment solution.store done.length)
                  .empty row
                header).1.result = .error error ∧
              failure = ⟨[rowContext row table], .formula error⟩ := by
  intro solution ids
  have hsorted : ids.Pairwise (· < ·) := pairwise_selected w table id
  cases hrows : w.rows table id with
  | error failure =>
      have hsolution : solution = ⟨w.store, [], .error failure⟩ := by
        change solveTable _ _ _ _ _ = _
        rw [solveTable, hrows]
      have hsame : Replaced table w.store (afterTurns w.store []) [] :=
        replaced_afterTurns (by simp) (by simp) (by simp)
      rw [hsolution]
      refine ⟨[], fun before turn after h => by simp at h, hsame,
        fun answers h => by simp at h, fun failure' h => .inl ⟨?_, rfl⟩⟩
      rw [Except.error.inj h]
  | ok listed =>
      obtain ⟨done, hturns, hdone, hreplaced, hends⟩ :=
        exists_turns_of_rows hcoherent session header hrows
      change solution.store = _ at hdone
      change Ends _ _ _ _ _ _ ids done solution.result at hends
      refine ⟨done, hturns, hreplaced, fun answers hanswers => ?_,
        fun failure hfailure => .inr ?_⟩
      · rw [hanswers] at hends
        cases hends with
        | finished h => exact ⟨h.symm, rfl⟩
      · rw [hfailure] at hends
        cases hends with
        | @stopped failing after _ h hfails =>
            obtain ⟨old, error, hold, hfails, rfl⟩ := hfails
            change (solveRow
                (session.environment (afterTurns w.store done) _) _ _
                _).1.result =
              _ at hfails
            rw [← hdone, Nat.zero_add] at hfails
            exact ⟨failing, h ▸ by simp, (filter_lt_of_split hsorted h).symm,
              old, error, hold, hfails, rfl⟩

/-! ### A row between two others -/

def haltedRows : WorkbookFile where
  schemas :=
    [⟨"T", [.named "memo", Formula.Session.column "name" "%memo.code"],
      0, by decide⟩]
  rows := .ofList [("T", [⟨some 1, .ofList [("memo", .plain "x")]⟩,
    ⟨some 2, .ofList [("memo", .plain "AND(")]⟩,
      ⟨some 3, .ofList [("memo", .plain "y")]⟩])]

/-- The second row has a call that is not closed. -/
theorem solveTable_atomic_halted :
    let w := loaded haltedRows
    let solution := solveTable firstSession w "T" Header.defaultValue none
    solution.result =
        .error ⟨["solve row 2 of T"], .formula (.unclosedCall "AND(")⟩ ∧
      (∃ turn : RowTurn,
          turn.id = 1 ∧ (∃ formulas, turn.solution.result = .ok formulas) ∧
        solution.store.get? "T" 1 = some turn.solution.row) ∧
      solution.store.get? "T" 2 = w.store.get? "T" 2 ∧
      solution.store.get? "T" 3 = w.store.get? "T" 3 := by
  intro w solution
  have hresult : solution.result =
      .error ⟨["solve row 2 of T"], .formula (.unclosedCall "AND(")⟩ := by
    decide +kernel
  have hids : selected w "T" none = [1, 2, 3] := by decide +kernel
  obtain ⟨done, hturns, hreplaced, -, hfails⟩ :=
    solveTable_atomic
      (coherent_loaded haltedRows) firstSession "T" Header.defaultValue none
  have hdone : done.map RowTurn.id = [1] := by
    rcases hfails _ hresult
      with ⟨hrows, -⟩
      | ⟨failing, hfailing, hsmaller, row, error, hrow, -, hfailure⟩
    · have hlisted : (w.rows "T" none).toOption.isSome = true := by
        decide +kernel
      rw [hrows] at hlisted
      cases hlisted
    · have hid := ((coherent_loaded haltedRows).filed hrow).2
      have hcontext : "solve row 2 of T" = rowContext row "T" := by
        simpa using congrArg Failure.context hfailure
      rw [rowContext, hid] at hcontext
      change failing ∈ selected w "T" none at hfailing
      change _ = (selected w "T" none).filter _ at hsmaller
      rw [hids] at hsmaller hfailing
      have hcases : failing = 1 ∨ failing = 2 ∨ failing = 3 := by
        simpa using hfailing
      rcases hcases with rfl | rfl | rfl
      · exact absurd hcontext (by decide)
      · exact hsmaller
      · exact absurd hcontext (by decide)
  have hothers (i : RowId) (hi : i ≠ 1) : solution.store.get? "T" i =
      w.store.get? "T" i :=
    hreplaced.others "T" i (by simp [hdone, hi])
  have hone : 1 ∈ done.map RowTurn.id := by simp [hdone]
  obtain ⟨turn, hturn, hid⟩ := List.mem_map.mp hone
  obtain ⟨before, after, hsplit⟩ := List.append_of_mem hturn
  obtain ⟨row, formulas, -, -, hok⟩ := hturns before turn after hsplit
  exact ⟨hresult,
    ⟨turn, hid, ⟨formulas, hok⟩, hid ▸ hreplaced.solved turn hturn⟩,
    hothers 2 (by decide), hothers 3 (by decide)⟩

end Workbook

end ReportDesk
