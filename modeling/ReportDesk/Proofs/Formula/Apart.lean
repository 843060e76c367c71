import ReportDesk.Proofs.Formula.FixedPoint

/-!
# Solving apart from a table

An evaluation that draws no identifier and follows no relation into a table
does not notice what becomes of the rows of that table, and neither does a
batch of such evaluations.
-/

namespace ReportDesk.Formula

/-! ## Turns -/

def Reference.follows (table : String) : Reference → Bool
  | .relation parent _ _ => parent == table
  | _ => false

structure Turn.Apart (turn : Turn) (header table : String) : Prop where
  identifiers : turn.found header (.calls .next) = []
  relations : ∀ fragment ∈ turn.found header .relations,
    fragment.reference.follows table = false

instance (turn : Turn) (header table : String) :
    Decidable (turn.Apart header table) :=
  decidable_of_iff (turn.found header (.calls .next) = [] ∧
      ∀ fragment ∈ turn.found header .relations,
        fragment.reference.follows table = false)
    ⟨fun h => ⟨h.1, h.2⟩, fun h => ⟨h.identifiers, h.relations⟩⟩

/-- The same settings and day, and the same rows in all other tables. -/
structure Environment.Beside (env env' : Environment) (table : String) :
    Prop where
  settings : env.settings = env'.settings
  today : env.today = env'.today
  rows : ∀ other ≠ table, env.store.rows other = env'.store.rows other

variable {env env' : Environment} {header table : String} {row : Row}
  {turn : Turn} {formulas : List ColumnFormula} {index : Nat}

theorem Environment.Beside.symm (h : env.Beside env' table) :
    env'.Beside env table :=
  ⟨h.settings.symm, h.today.symm,
    fun other hother => (h.rows other hother).symm⟩

theorem Environment.Beside.trans {env'' : Environment}
    (h : env.Beside env' table)
    (h' : env'.Beside env'' table) : env.Beside env'' table :=
  ⟨h.settings.trans h'.settings, h.today.trans h'.today,
    fun other hother => (h.rows other hother).trans (h'.rows other hother)⟩

theorem Environment.Beside.child (h : env.Beside env' table) (index : Nat) :
    (env.child index).Beside (env'.child index) table := by
  rw [Environment.child, Environment.child]
  exact ⟨h.settings, h.today, h.rows⟩

theorem Environment.Beside.relationValue (h : env.Beside env' table)
    {parent : String} (hparent : parent ≠ table) (row : Row) (field : String)
    (part : Cell.Part) :
    relationValue env row parent field part =
      relationValue env' row parent field part := by
  simp only [Formula.relationValue, Store.get?, h.rows parent hparent]

theorem Turn.Apart.result_eq (h : turn.Apart header table)
    (hbeside : turn.env.Beside env' table) :
    (solveColumn env' turn.row turn.formula.column header).result =
      turn.result header := by
  have halike : Alike turn.env env' turn.row turn.row :=
    ⟨hbeside.settings, hbeside.today, rfl, rfl⟩
  rw [Turn.result, result_solveColumn, result_solveColumn]
  refine (result_evaluate_congr halike.keywords
    (halike.fragmentValue (fun _ _ _ _ _ => rfl) ?_ h.identifiers) _ _).symm
  intro fragment hfound parent field part hreference
  have hparent := h.relations fragment hfound
  rw [hreference, Reference.follows, beq_eq_false_iff_ne] at hparent
  exact hbeside.relationValue hparent turn.row field part

/-! ## Batches -/

theorem solveInOrder_apart (hbeside : env.Beside env' table)
    (hturns : ∀ turn ∈ turns env header index formulas row,
      turn.Apart header table) :
    (solveInOrder env' header index formulas row).row =
        (solveInOrder env header index formulas row).row ∧
      (solveInOrder env' header index formulas row).result =
        (solveInOrder env header index formulas row).result := by
  obtain ⟨findings, hevaluated, hrow, hends⟩ :=
    exists_findings env header formulas index row
  -- each evaluation of the batch, also the one that fails, has a turn
  have hsame {before : List Finding} {formula : ColumnFormula}
      {rest : List ColumnFormula}
      (hbefore : Evaluated env header index row before)
      (hsplit : formulas = before.map Finding.formula ++ formula :: rest) :
      (solveColumn (env'.child (index + before.length))
          (written header row before)
        formula.column header).result =
      (solveColumn (env.child (index + before.length))
          (written header row before) formula.column header).result := by
    subst hsplit
    exact (hturns _ (mem_turns_of_evaluated hbefore formula rest)).result_eq
      (hbeside.child _)
  have hevaluated' : Evaluated env' header index row findings := by
    rintro before finding after rfl
    obtain ⟨rest, hrest⟩ := hends.map_prefix
    rw [List.map_append, List.append_assoc] at hrest
    exact (hsame (Run.Makes.of_append hevaluated) hrest.symm).trans
      (hevaluated before finding after rfl)
  generalize (solveInOrder env header index formulas row).result = result
    at hends ⊢
  have hends' : Ends env' header index row formulas findings result := by
    cases hends with
    | finished h => exact .finished h
    | stopped h hfails => exact .stopped h ((hsame hevaluated h).trans hfails)
  rw [hrow]
  exact solveInOrder_of_ends hevaluated' hends'

theorem solveRow_of_parseAll_error (env : Environment) {cache : DependencyCache}
    {error : Error} (h : (parseAll cache row.schema header).1 = .error error) :
    (solveRow env cache row header).1 = ⟨row, [], .error error⟩ := by
  rw [solveRow]
  rcases hparse : parseAll cache row.schema header with ⟨result, later⟩
  rw [hparse] at h
  cases h
  rfl

theorem solveRow_congr (env : Environment) {cache cache' : DependencyCache}
    {row : Row} (h : Faithful row.schema (cache.known row.schema))
    (h' : Faithful row.schema (cache'.known row.schema)) (header : String) :
    (solveRow env cache row header).1 = (solveRow env cache' row header).1 := by
  have hparse : (parseAll cache row.schema header).1 =
      (parseAll cache' row.schema header).1 :=
    parseColumns_congr h h'
  rw [solveRow, solveRow]
  rcases hleft : parseAll cache row.schema header with ⟨result, later⟩
  rcases hright : parseAll cache' row.schema header with ⟨result', later'⟩
  rw [hleft, hright] at hparse
  obtain rfl : result = result' := hparse
  cases result with
  | error error => rfl
  | ok formulas =>
      simp only
      cases (solveInOrder env header 0 (byDependencies formulas) row).result
        with
      | error error => rfl
      | ok solved => rfl

theorem solveRow_apart {cache cache' : DependencyCache}
    (hbeside : env.Beside env' table)
    (hcache : Faithful row.schema (cache.known row.schema))
    (hcache' : Faithful row.schema (cache'.known row.schema))
    (hturns : ∀ turn ∈ batchTurns env cache row header,
      turn.Apart header table) :
    (solveRow env' cache' row header).1.row =
        (solveRow env cache row header).1.row ∧
      (solveRow env' cache' row header).1.result =
        (solveRow env cache row header).1.result := by
  rw [solveRow_congr env' hcache' hcache header]
  rw [batchTurns] at hturns
  cases hformulas : (parseAll cache row.schema header).1 with
  | error error =>
      rw [solveRow_of_parseAll_error env hformulas,
        solveRow_of_parseAll_error env' hformulas]
      exact ⟨rfl, rfl⟩
  | ok formulas =>
      rw [hformulas] at hturns
      obtain ⟨hrow, hresult⟩ := solveRow_of_parseAll env hformulas
      obtain ⟨hrow', hresult'⟩ := solveRow_of_parseAll env' hformulas
      rw [hrow, hresult, hrow', hresult']
      exact solveInOrder_apart hbeside hturns

theorem solveRow_frame (env : Environment) (cache : DependencyCache) (row : Row)
    (header : String) :
    (solveRow env cache row header).1.row.schema = row.schema ∧
      (solveRow env cache row header).1.row.id = row.id := by
  cases hformulas : (parseAll cache row.schema header).1 with
  | error error =>
      rw [solveRow_of_parseAll_error env hformulas]
      exact ⟨rfl, rfl⟩
  | ok formulas =>
      rw [(solveRow_of_parseAll env hformulas).1]
      exact row_solveInOrder_frame env header (byDependencies formulas) 0 row

/-! ## The memory of counts -/

theorem faithful_empty (schema : Schema) :
    Faithful schema (DependencyCache.empty.known schema) :=
  faithful_nil schema

/--
The memory stays good for every definition of the table, when the definitions
are told apart by their revisions.
-/
theorem Faithful.known_parseColumns {schema other : Schema}
    {columns : List Column} {cache : DependencyCache}
    (hname : other.sheetName = schema.sheetName)
    (hrevision : other.revision = schema.revision → other = schema)
    (h : Faithful schema (cache.known schema))
    (hother : Faithful other (cache.known other)) :
    Faithful other
      ((parseColumns schema header columns cache).2.known other) := by
  induction columns generalizing cache with
  | nil => exact hother
  | cons column rest ih =>
      have hcounted : Faithful other
          ((cache.count schema column.id header).2.known other) := by
        by_cases heq : other.revision = schema.revision
        · rw [hrevision heq]
          exact h.known_count column.id header
        · have hforgotten :
              (cache.count schema column.id header).2.known other = [] := by
            simp [DependencyCache.count, DependencyCache.known, hname,
              Ne.symm heq]
          rw [hforgotten]
          exact faithful_nil other
      rw [parseColumns]
      simp only [parseColumn]
      cases (cache.count schema column.id header).1 with
      | error error => exact hcounted
      | ok n => exact ih (h.known_count column.id header) hcounted

end ReportDesk.Formula
