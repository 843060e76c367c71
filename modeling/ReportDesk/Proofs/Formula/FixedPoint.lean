import ReportDesk.Proofs.Dependency.Order
import ReportDesk.Proofs.Formula.Turns

/-!
# A solved row is a fixed point

When the counts see every reference of a batch, the columns that a formula
reads are settled at its turn.  Evaluating the formula again on the row that
the batch leaves behind finds the same value, and writing it changes nothing.
-/

namespace ReportDesk.Formula

/-! ## Foreseen turns -/

namespace Turn

variable (turn : Turn) (header : String)

def text : String :=
  turn.row.schema.formula turn.formula.column header

def found (stage : Stage) : List Fragment :=
  stage.found turn.env turn.row (turn.text header)

/--
A reference to a column of the schema is one to another column, and the count
of references sees it in the formula.
-/
def Counts : Reference → Prop
  | .column column _ =>
      turn.row.schema.contains column = true →
        column ≠ turn.formula.column ∧
          0 < countReferences (turn.text header) column
  | _ => True

instance (reference : Reference) :
    Decidable (turn.Counts header reference) := by
  cases reference <;> unfold Counts <;> infer_instance

/--
The evaluation finds no relation and no call that draws an identifier, and the
counts see every reference to a column that it finds.
-/
structure Foreseen : Prop where
  relations : turn.found header .relations = []
  identifiers : turn.found header (.calls .next) = []
  columns : ∀ fragment ∈ turn.found header .columns,
    turn.Counts header fragment.reference

instance : Decidable (turn.Foreseen header) :=
  decidable_of_iff (turn.found header .relations = [] ∧
      turn.found header (.calls .next) = [] ∧
      ∀ fragment ∈ turn.found header .columns,
        turn.Counts header fragment.reference)
    ⟨fun h => ⟨h.1, h.2.1, h.2.2⟩,
      fun h => ⟨h.relations, h.identifiers, h.columns⟩⟩

end Turn

variable {env : Environment} {header : String} {row : Row}
  {formulas : List ColumnFormula} {turn : Turn}

theorem Turn.Foreseen.needs (h : turn.Foreseen header) {fragment : Fragment}
    {column : String} {part : Cell.Part}
    (hmem : fragment ∈ turn.found header .columns)
    (hreference : fragment.reference = .column column part)
    (hcontains : turn.row.schema.contains column = true) :
    Needs turn.row.schema header turn.formula.column column := by
  have hcounts := h.columns fragment hmem
  rw [hreference] at hcounts
  obtain ⟨hother, hcounted⟩ := hcounts hcontains
  obtain ⟨c, hc, hid⟩ := Schema.exists_column_of_contains hcontains
  refine ⟨c, List.mem_filter.mpr ⟨hc, ?_⟩, hid⟩
  rw [decide_eq_true_eq, hid, not_or]
  exact ⟨hother, Nat.pos_iff_ne_zero.mp hcounted⟩

/--
Evaluated again after the turn and later ones, a formula has the value that it
had at its turn, when none of them has written a column that the formula needs.
-/
theorem Turn.Foreseen.result_settled (h : turn.Foreseen header)
    {findings : List Finding} (hneeds : ∀ column,
      Needs turn.row.schema header turn.formula.column column →
      column ∉ findings.map fun f => f.formula.column) {again : Environment}
    (hsettings : turn.env.settings = again.settings)
    (htoday : turn.env.today = again.today) :
    (solveColumn again
        (written header turn.row findings) turn.formula.column header).result =
      turn.result header := by
  have hschema : (written header turn.row findings).schema = turn.row.schema :=
    schema_written turn.row
  have halike : Alike turn.env again turn.row
      (written header turn.row findings) :=
    ⟨hsettings, htoday, (id_written turn.row).symm, hschema.symm⟩
  rw [Turn.result, result_solveColumn, result_solveColumn, hschema]
  refine (result_evaluate_congr halike.keywords
    (halike.fragmentValue ?_ ?_ h.identifiers) _ _).symm
  · intro fragment hfound column part hreference
    refine columnValue_congr halike.schema fun hcontains => ?_
    have hneeded := hneeds column (h.needs hfound hreference hcontains)
    rw [Row.read, Row.read, cell?_written_of_not_mem turn.row hneeded]
  · intro fragment hfound
    change fragment ∈ turn.found header .relations at hfound
    rw [h.relations] at hfound
    exact absurd hfound List.not_mem_nil

/-! ## Settled values -/

section Settled

variable {finding : Finding} {findings : List Finding}
  (harranged : Arranged row.schema header (findings.map Finding.formula))
  (hforeseen : ∀ turn ∈ turns env header 0 (findings.map Finding.formula) row,
    turn.Foreseen header)
  (hevaluated : Evaluated env header 0 row findings)

include harranged hforeseen hevaluated

theorem result_solveColumn_again (again : Environment)
    (hsettings : env.settings = again.settings)
    (htoday : env.today = again.today) (hmem : finding ∈ findings) :
    (solveColumn again
        (written header row findings) finding.formula.column header).result =
      .ok finding.value := by
  obtain ⟨before, after, rfl⟩ := List.append_of_mem hmem
  rw [List.map_append, List.map_cons] at harranged hforeseen
  have hbefore : Evaluated env header 0 row before :=
    Run.Makes.of_append hevaluated
  have hturn := hforeseen _
    (mem_turns_of_evaluated hbefore finding.formula (after.map Finding.formula))
  have hvalue := hevaluated before finding after rfl
  change (solveColumn _ (written header row before) _ _).result = _ at hvalue
  rw [written_append, ← hvalue]
  refine hturn.result_settled (fun column hneeds => ?_) ?_ ?_
  · -- what the formula needs has had its turn before
    change Needs (written header row before).schema _ _ _ at hneeds
    rw [schema_written] at hneeds
    have hneeded := harranged.not_mem_of_needs (List.suffix_append _ _) hneeds
    rwa [← List.map_cons, List.map_map] at hneeded
  · exact (Environment.settings_child env _).trans hsettings
  · exact (Environment.today_child env _).trans htoday

theorem solveInOrder_again (again : Environment)
    (hsettings : env.settings = again.settings)
    (htoday : env.today = again.today) :
    (solveInOrder again header 0 (findings.map Finding.formula)
        (written header row findings)).row = written header row findings ∧
      (solveInOrder again header 0 (findings.map Finding.formula)
        (written header row findings)).result = .ok (answered findings) := by
  have hnodup := harranged.nodup
  rw [List.map_map] at hnodup
  have hsame : ∀ before ⊆ findings,
      written header (written header row findings) before =
        written header row findings := by
    intro before hsub
    refine written_eq_self fun f hf => ?_
    exact Row.keep_eq_self (cell?_written_of_mem row hnodup (hsub hf))
  have hagain : Evaluated again header 0
      (written header row findings) findings := by
    rintro before f after rfl
    change (solveColumn _
      (written header (written header row _) before) _ _).result = _
    rw [hsame before (List.subset_append_left _ _)]
    refine result_solveColumn_again harranged hforeseen hevaluated _ ?_
      ?_ (by simp)
    · rw [Environment.settings_child, hsettings]
    · rw [Environment.today_child, htoday]
  obtain ⟨hrow, hresult⟩ := solveInOrder_of_ends hagain (.finished rfl)
  exact ⟨hrow.trans (hsame findings (List.Subset.refl _)), hresult⟩

end Settled

/-! ## Solving a row -/

def batchTurns (env : Environment) (cache : DependencyCache) (row : Row)
    (header : String) : List Turn :=
  match (parseAll cache row.schema header).1 with
  | .error _ => []
  | .ok formulas => turns env header 0 (byDependencies formulas) row

/--
The value of a column in the answer of a batch; empty when the batch has skipped
it.
-/
def batchValue (solved : List ColumnFormula) (column : String) : String :=
  ((solved.find? fun f => f.column == column).map ColumnFormula.solvedText).getD
    ""

theorem find?_answered_of_not_mem {findings : List Finding} {column : String}
    (h : column ∉ findings.map fun f => f.formula.column) :
    (answered findings).find? (fun f => f.column == column) = none := by
  rw [List.find?_eq_none]
  intro formula hmem hsame
  have hcolumn := (answered_sublist findings).subset (List.mem_map_of_mem hmem)
  rw [List.map_map, beq_iff_eq.mp hsame] at hcolumn
  exact h hcolumn

theorem batchValue_answered {finding : Finding} {findings : List Finding}
    (hnodup : (findings.map fun f => f.formula.column).Nodup)
    (hmem : finding ∈ findings) :
    batchValue (answered findings) finding.formula.column = finding.value := by
  obtain ⟨before, after, rfl⟩ := List.append_of_mem hmem
  rw [List.map_append, List.map_cons, List.nodup_middle, List.nodup_cons,
    List.mem_append, not_or] at hnodup
  obtain ⟨⟨hbefore, hafter⟩, -⟩ := hnodup
  rw [batchValue, answered_append, List.find?_append,
    find?_answered_of_not_mem hbefore, Option.none_or, answered_cons]
  split
  next hempty =>
    rw [find?_answered_of_not_mem hafter, String.isEmpty_iff.mp hempty]
    rfl
  next =>
    rw [List.find?_cons_of_pos (by simp)]
    rfl

theorem solveRow_of_parseAll (env : Environment) {cache : DependencyCache}
    (h : (parseAll cache row.schema header).1 = .ok formulas) :
    (solveRow env cache row header).1.row =
        (solveInOrder env header 0 (byDependencies formulas) row).row ∧
      (solveRow env cache row header).1.result =
        (solveInOrder env header 0 (byDependencies formulas) row).result := by
  rw [solveRow]
  rcases hparse : parseAll cache row.schema header with ⟨result, later⟩
  rw [hparse] at h
  cases h
  simp only
  cases hresult :
    (solveInOrder env header 0 (byDependencies formulas) row).result with
  | error error => exact ⟨rfl, hresult⟩
  | ok solved => exact ⟨rfl, rfl⟩

theorem cache_solveRow (env : Environment) (cache : DependencyCache) (row : Row)
    (header : String) :
    (solveRow env cache row header).2 =
      (parseAll cache row.schema header).2 := by
  rw [solveRow]
  rcases parseAll cache row.schema header with ⟨result, later⟩
  cases result with
  | error error => rfl
  | ok formulas =>
      simp only
      cases (solveInOrder env header 0 (byDependencies formulas) row).result
        with
      | error error => rfl
      | ok solved => rfl

theorem exists_batch {cache : DependencyCache} {solved : List ColumnFormula}
    (hcache : Faithful row.schema (cache.known row.schema))
    (hsolved : (solveRow env cache row header).1.result = .ok solved) :
    ∃ formulas, (parseAll cache row.schema header).1 = .ok formulas ∧
      Parsed row.schema header (row.schema.columnsWith header) formulas := by
  cases hparse : (parseAll cache row.schema header).1 with
  | error error =>
      rw [solveRow] at hsolved
      rcases hboth : parseAll cache row.schema header with ⟨result, later⟩
      rw [hboth] at hparse hsolved
      cases hparse
      cases hsolved
  | ok formulas => exact ⟨formulas, rfl, parsed_of_parseColumns hcache hparse⟩

private theorem result_solveFormula {cache : DependencyCache}
    {column value : String} {n : Nat}
    (hcount : (cache.count row.schema column header).1 = .ok n)
    (hvalue : (solveColumn env row column header).result = .ok value) :
    (solveFormula env cache row column header).1.result =
      .ok ⟨column, header, row.schema.formula column header, n,
        some value⟩ := by
  simp only [solveFormula, parseColumn, hcount, Except.map, Logged.result_bind,
    Logged.result_ofExcept, Except.bind, hvalue]
  rfl

/--
When every turn of a successful batch is foreseen, the row that it leaves
behind is a fixed point for every later use of the formulas: a column solved
again has the value of the batch, and a second batch gives the same answer and
leaves the row as it is.  The memory of counts may have been used in between,
and neither the store nor the source of identifiers matters.
-/
theorem Session.solveRow_fixedPoint {session : Session}
    (hsession : session.Reachable) (hschema : row.schema ∈ session.schemas)
    {solved : List ColumnFormula}
    (hsolved : (solveRow env session.cache row header).1.result = .ok solved)
    (hforeseen : ∀ turn ∈ batchTurns env session.cache row header,
      turn.Foreseen header) :
    Reachable
        { session with cache := (solveRow env session.cache row header).2 } ∧
      ∀ later : Session, later.Reachable → row.schema ∈ later.schemas →
        ∀ store ids,
        (∀ column ∈ row.schema.columnsWith header, ∃ n,
          (solveFormula { env with store, ids } later.cache
            (solveRow env session.cache row header).1.row
                column.id header).1.result =
              .ok ⟨column.id, header, row.schema.formula column.id header, n,
                some (batchValue solved column.id)⟩) ∧
        (solveRow { env with store, ids } later.cache
          (solveRow env session.cache row header).1.row header).1.result =
            .ok solved ∧
        (solveRow { env with store, ids } later.cache
          (solveRow env session.cache row header).1.row header).1.row =
            (solveRow env session.cache row header).1.row := by
  have hknown := hsession.consistent.known_faithful hschema
  obtain ⟨formulas, hparse, hparsed⟩ := exists_batch hknown hsolved
  obtain ⟨hrow, hresult⟩ := solveRow_of_parseAll env hparse
  rw [batchTurns, hparse] at hforeseen
  change ∀ turn ∈ turns env header 0 (byDependencies formulas) row,
    turn.Foreseen header
    at hforeseen
  have harranged := hparsed.arranged
  have hperm : (byDependencies formulas).Perm formulas :=
    List.mergeSort_perm _ _
  obtain ⟨findings, hevaluated, hwritten, hends⟩ :=
    exists_findings env header (byDependencies formulas) 0 row
  rw [← hresult, hsolved] at hends
  rw [hrow, hwritten]
  obtain ⟨hformulas, rfl⟩ := hends.of_ok
  rw [hformulas] at harranged hforeseen hperm
  constructor
  · rw [cache_solveRow]
    exact reachable_parseColumns hsession hschema header _
  · intro later hlater hlaterSchema store ids
    -- whatever the later memory holds, it leads to the same formulas in the
    -- same order
    have hlaterKnown := hlater.consistent.known_faithful hlaterSchema
    have hframe : (written header row findings).schema = row.schema :=
      schema_written row
    have hlaterParse :
        (parseAll later.cache (written header row findings).schema header).1 =
        .ok formulas := by
      rw [hframe, ← hparse]
      exact parseColumns_congr hlaterKnown hknown
    obtain ⟨hlaterRow, hlaterResult⟩ :=
      solveRow_of_parseAll { env with store, ids } hlaterParse
    obtain ⟨hsameRow, hsameResult⟩ :=
      solveInOrder_again harranged hforeseen hevaluated
      { env with store, ids } rfl rfl
    rw [hformulas] at hlaterRow hlaterResult
    refine ⟨fun column hcolumn => ?_, hlaterResult.trans hsameResult,
      hlaterRow.trans hsameRow⟩
    have hid : column.id ∈ formulas.map ColumnFormula.column := by
      rw [hparsed.columns]
      exact List.mem_map_of_mem hcolumn
    obtain ⟨f, hf, hcolumnId⟩ := List.mem_map.mp hid
    obtain ⟨finding, hmem, rfl⟩ := List.mem_map.mp (hperm.mem_iff.mpr hf)
    have hcount :
        (later.cache.count
          (written header row findings).schema finding.formula.column
        header).1 = .ok finding.formula.dependencies := by
      rw [hframe]
      exact (countDependencies_eq_ok_iff hlaterKnown _ _).mpr
        (hparsed.weighs _ hf)
    have hvalue := result_solveColumn_again harranged hforeseen hevaluated
      { env with store, ids } rfl rfl hmem
    have hnodup := harranged.nodup
    rw [List.map_map] at hnodup
    have hformula := result_solveFormula hcount hvalue
    rw [hframe, ← batchValue_answered hnodup hmem, hcolumnId] at hformula
    exact ⟨finding.formula.dependencies, hformula⟩

/-! ### A greeting above a name -/

def greetingSchema : Schema where
  sheetName := "T"
  columns := [Session.column "greeting" "Dear %name.label",
    Session.column "note" "%memo.code",
    Session.column "name" "LEFT_TRIM(%source.code,3)", Column.named "source"]
  revision := 1
  faultless := by decide

def greetingSession : Session :=
  ⟨⟨.empty, 1⟩, [greetingSchema], .empty⟩

def greetingRow : Row :=
  (Row.new greetingSchema).putCode "source" "Adam"

def greetingEnvironment : Environment :=
  ⟨.standard, ⟨2024, 1, 1⟩, .empty, ⟨0⟩⟩

theorem reachable_greetingSession : greetingSession.Reachable :=
  .step .start (.define "T" greetingSchema.columns rfl)

def nameFormula : ColumnFormula :=
  ⟨"name", Header.defaultValue, "LEFT_TRIM(%source.code,3)", 1, none⟩

def greetingFormula : ColumnFormula :=
  ⟨"greeting", Header.defaultValue, "Dear %name.label", 2, none⟩

def noteFormula : ColumnFormula :=
  ⟨"note", Header.defaultValue, "%memo.code", 0, none⟩

theorem parseAll_greeting : (parseAll greetingSession.cache greetingRow.schema
    Header.defaultValue).1 =
      .ok [greetingFormula, noteFormula, nameFormula] := by
  decide +kernel

theorem byDependencies_greeting :
    byDependencies [greetingFormula, noteFormula, nameFormula] =
    [noteFormula, nameFormula, greetingFormula] := by
  simp [byDependencies, List.mergeSort, List.MergeSort.Internal.splitInTwo,
    greetingFormula, noteFormula, nameFormula]

theorem solveRow_greeting :
    (solveRow greetingEnvironment greetingSession.cache greetingRow
      Header.defaultValue).1.result =
        .ok [{ nameFormula with solved := some "Ada" },
          { greetingFormula with solved := some "Dear Ada" }] := by
  rw [(solveRow_of_parseAll greetingEnvironment parseAll_greeting).2,
    byDependencies_greeting]
  decide +kernel

private theorem foreseen_greeting :
    ∀ turn ∈ batchTurns greetingEnvironment greetingSession.cache greetingRow
      Header.defaultValue, turn.Foreseen Header.defaultValue := by
  rw [batchTurns, parseAll_greeting]
  simp only
  rw [byDependencies_greeting]
  decide +kernel

/-- The second batch draws other identifiers; the note is empty both times. -/
theorem Session.solveRow_fixedPoint_greeting :
    let solution :=
      solveRow greetingEnvironment greetingSession.cache greetingRow
      Header.defaultValue
    let again := { greetingEnvironment with ids := ⟨7⟩ }
    solution.1.result = .ok [{ nameFormula with solved := some "Ada" },
      { greetingFormula with solved := some "Dear Ada" }] ∧
    (∃ n, (solveFormula again solution.2 solution.1.row "note"
      Header.defaultValue).1.result =
        .ok ⟨"note", Header.defaultValue, "%memo.code", n, some ""⟩) ∧
    (solveRow again solution.2 solution.1.row Header.defaultValue).1.result =
      solution.1.result ∧
    (solveRow again solution.2 solution.1.row Header.defaultValue).1.row =
      solution.1.row := by
  have hschema : greetingRow.schema ∈ greetingSession.schemas :=
    List.mem_cons_self
  obtain ⟨hreachable, hlater⟩ :=
    Session.solveRow_fixedPoint reachable_greetingSession hschema
    solveRow_greeting foreseen_greeting
  obtain ⟨hcolumns, hresult, hrow⟩ := hlater _ hreachable hschema .empty ⟨7⟩
  have hnote : Session.column "note" "%memo.code" ∈
      greetingRow.schema.columnsWith Header.defaultValue := by
    decide +kernel
  exact ⟨solveRow_greeting, hcolumns _ hnote,
    hresult.trans solveRow_greeting.symm, hrow⟩

end ReportDesk.Formula
