import ReportDesk.Proofs.Dependency.Cycle
import ReportDesk.Proofs.Formula.Apart

/-!
# What a batch writes

However a batch ends, it has written the values that are not empty of its first
formulas: of all of them when it succeeds, of those before the one that fails,
and of none when a formula under the header needs itself.
-/

namespace ReportDesk.Formula

variable {env : Environment} {header : String} {row : Row}
  {findings : List Finding}

/-! ## What is left alone -/

/--
The cells, the id and the schema of a row after the findings were written.
-/
structure Rewritten (header : String) (row later : Row)
    (findings : List Finding) : Prop where
  schema : later.schema = row.schema
  id : later.id = row.id
  others : ∀ column, column ∉ findings.map (fun f => f.formula.column) →
    later.cell? column = row.cell? column
  empty : ∀ f ∈ findings, f.value = "" →
    later.cell? f.formula.column = row.cell? f.formula.column
  values : ∀ f ∈ findings, f.value ≠ "" → later.cell? f.formula.column =
    some
      (Row.writtenCell
        ((row.cell? f.formula.column).getD .blank) f.value header)
  codes : header = Header.labelFormula → ∀ column,
    later.code column = row.code column
  labels : header = Header.codeFormula ∨ header = Header.defaultCode →
    ∀ column, (later.cell? column).bind Cell.label =
      (row.cell? column).bind Cell.label

private theorem code_write_of_label (row : Row) (column value other : String) :
    (row.write column value Header.labelFormula).code other =
      row.code other := by
  by_cases hother : other = column
  · subst hother
    have htarget : Header.target Header.labelFormula = .label := by decide
    rw [Row.code, Row.read, Row.cell?_write_self, Row.writtenCell, htarget,
      Row.code, Row.read]
    cases row.cell? other with
    | none => rfl
    | some cell => rfl
  · rw [Row.code, Row.read, Row.cell?_write_of_ne _ _ _ hother]
    rfl

private theorem label_write_of_code (row : Row) (column value other : String)
    (hheader : header = Header.codeFormula ∨ header = Header.defaultCode) :
    ((row.write column value header).cell? other).bind Cell.label =
      (row.cell? other).bind Cell.label := by
  by_cases hother : other = column
  · subst hother
    have htarget : Header.target header = .code := by
      rcases hheader with rfl | rfl
      · decide
      · decide
    rw [Row.cell?_write_self, Row.writtenCell, htarget]
    cases row.cell? other with
    | none => rfl
    | some cell => rfl
  · rw [Row.cell?_write_of_ne _ _ _ hother]

theorem rewritten_written (header : String) (row : Row)
    (hnodup : (findings.map fun f => f.formula.column).Nodup) :
    Rewritten header row (written header row findings) findings where
  schema := schema_written row
  id := id_written row
  others := fun column hcolumn => cell?_written_of_not_mem row hcolumn
  empty := fun f hf hempty => by
    rw [cell?_written_of_mem row hnodup hf, hempty]
    rfl
  values := fun f hf hvalue => by
    rw [cell?_written_of_mem row hnodup hf, Row.keep,
      if_neg fun hempty => hvalue (String.isEmpty_iff.mp hempty),
        Row.cell?_write_self]
  codes := by
    rintro rfl column
    exact view_written (fun row => row.code column)
      (fun _ _ _ row => code_write_of_label row _ _ column) row
  labels := fun hheader column =>
    view_written (fun row => (row.cell? column).bind Cell.label)
      (fun _ _ _ row => label_write_of_code row _ _ column hheader) row

/-! ## Formulas that need themselves -/

theorem parseColumns_fails_iff {schema : Schema} {cache : DependencyCache}
    (h : Faithful schema (cache.known schema)) (header : String)
    (columns : List Column) :
    (∃ error, (parseColumns schema header columns cache).1 = .error error) ↔
      ∃ column ∈ columns, LeadsToCycle schema header column.id := by
  induction columns generalizing cache with
  | nil => simp [parseColumns]
  | cons column rest ih =>
      have hrest := ih (h.known_count column.id header)
      rw [parseColumns, List.exists_mem_cons_iff]
      simp only [parseColumn]
      cases hcount : (cache.count schema column.id header).1 with
      | error error =>
          obtain ⟨path, -, hcloses⟩ := countDependencies_eq_error hcount
          exact iff_of_true ⟨error, rfl⟩ (.inl hcloses.leadsToCycle)
      | ok n =>
          have hweighs : Weighs schema header column.id n :=
            (countDependencies_eq_ok_iff h column.id n).mp hcount
          rw [or_iff_right hweighs.not_leadsToCycle, ← hrest]
          simp only [Except.map]
          cases (parseColumns schema header rest
            (cache.count schema column.id header).2).1 with
          | error error => simp
          | ok later => simp

/-! ## Solving a row -/

theorem exists_formulas_of_solveRow {cache : DependencyCache}
    {solved : List ColumnFormula}
    (hcache : Faithful row.schema (cache.known row.schema))
    (hsolved : (solveRow env cache row header).1.result = .ok solved) :
    ∃ formulas, (parseAll cache row.schema header).1 = .ok formulas ∧
      (solved.map ColumnFormula.column).Sublist
        ((byDependencies formulas).map ColumnFormula.column) := by
  obtain ⟨formulas, hparse, -⟩ := exists_batch hcache hsolved
  obtain ⟨findings, -, -, hends⟩ :=
    exists_findings env header (byDependencies formulas) 0 row
  rw [← (solveRow_of_parseAll env hparse).2, hsolved] at hends
  obtain ⟨hformulas, rfl⟩ := hends.of_ok
  exact ⟨formulas, hparse, hformulas ▸ answered_sublist findings⟩

/--
However solving a row ends, the row holds the values that are not empty of a
prefix of its formulas, sorted by their counts: of all formulas when it
succeeds, of those before the failing one when an evaluation fails, and of none
when a formula under the header leads to a cycle.
-/
theorem Session.solveRow_written {session : Session}
    (hsession : session.Reachable) (hschema : row.schema ∈ session.schemas)
    (env : Environment) (header : String) :
    let solution := (solveRow env session.cache row header).1
    let parsed := (parseAll session.cache row.schema header).1
    let columns := row.schema.columnsWith header
    Reachable
        { session with cache := (solveRow env session.cache row header).2 } ∧
      ((∃ error, parsed = .error error) ↔
        ∃ column ∈ columns, LeadsToCycle row.schema header column.id) ∧
      (∀ error, parsed = .error error →
        solution.row = row ∧ solution.result = .error error) ∧
      ∀ formulas, parsed = .ok formulas →
          Parsed row.schema header columns formulas ∧
        ∃ findings, Evaluated env header 0 row findings ∧
          Ends env header 0 row
            (byDependencies formulas) findings solution.result ∧
          solution.row = written header row findings ∧
          Rewritten header row solution.row findings ∧
          ∀ f ∈ findings, f.value = "" →
            f.formula.column ∉
              (answered findings).map ColumnFormula.column := by
  intro solution parsed columns
  have hknown := hsession.consistent.known_faithful hschema
  refine ⟨?_, parseColumns_fails_iff hknown header columns,
    fun error hparse => ?_, fun formulas hparse => ?_⟩
  · rw [cache_solveRow]
    exact reachable_parseColumns hsession hschema header _
  · have hsolution := solveRow_of_parseAll_error env hparse
    exact ⟨congrArg RowSolution.row hsolution,
      congrArg RowSolution.result hsolution⟩
  · have hparsed : Parsed row.schema header columns formulas :=
      parsed_of_parseColumns hknown hparse
    obtain ⟨hrow, hresult⟩ := solveRow_of_parseAll env hparse
    obtain ⟨findings, hevaluated, hwritten, hends⟩ :=
      exists_findings env header (byDependencies formulas) 0 row
    rw [← hrow] at hwritten
    rw [← hresult] at hends
    have hnodup : (findings.map fun f => f.formula.column).Nodup := by
      have hprefix := hends.map_prefix.sublist.map ColumnFormula.column
      rw [List.map_map] at hprefix
      exact hparsed.arranged.nodup.sublist hprefix
    refine ⟨hparsed, findings, hevaluated, hends, hwritten, ?_,
      fun f hf hempty => not_mem_answered hnodup hf hempty⟩
    have hsolution : solution.row = written header row findings := hwritten
    exact hsolution ▸ rewritten_written header row hnodup

def haltedSchema : Schema where
  sheetName := "T"
  columns := [Session.column "greeting" "AND(%name.label",
    Session.column "note" "%memo.code",
    Session.column "name" "LEFT_TRIM(%source.code,3)", Column.named "source"]
  revision := 1
  faultless := by decide

def haltedSession : Session :=
  ⟨⟨.empty, 1⟩, [haltedSchema], .empty⟩

def haltedRow : Row :=
  ((Row.new haltedSchema).putCode "source" "Adam").putCode "greeting" "Hello"

def haltedFormula : ColumnFormula :=
  ⟨"greeting", Header.defaultValue, "AND(%name.label", 2, none⟩

private theorem parseAll_halted : (parseAll haltedSession.cache haltedRow.schema
    Header.defaultValue).1 = .ok [haltedFormula, noteFormula, nameFormula] := by
  decide +kernel

private theorem byDependencies_halted :
    byDependencies [haltedFormula, noteFormula, nameFormula] =
    [noteFormula, nameFormula, haltedFormula] := by
  simp [byDependencies, List.mergeSort, List.MergeSort.Internal.splitInTwo,
    haltedFormula, noteFormula, nameFormula]

private theorem findings_halted {error : Error} (hevaluated :
      Evaluated greetingEnvironment Header.defaultValue 0 haltedRow findings)
    (hends : Ends greetingEnvironment Header.defaultValue 0 haltedRow
      [noteFormula, nameFormula, haltedFormula] findings (.error error)) :
    findings = [⟨noteFormula, ""⟩, ⟨nameFormula, "Ada"⟩] := by
  have hnote : (solveColumn (greetingEnvironment.child 0) haltedRow "note"
      Header.defaultValue).result = .ok "" := by decide +kernel
  have hname : (solveColumn (greetingEnvironment.child 1) haltedRow "name"
      Header.defaultValue).result = .ok "Ada" := by decide +kernel
  have hfirst {value : String} {rest : List Finding}
      (h : findings = ⟨noteFormula, value⟩ :: rest) : value = "" :=
    Except.ok.inj ((hevaluated [] _ _ h).symm.trans hnote)
  cases hends with
  | @stopped formula rest _ h hfails =>
      have hlength := congrArg List.length h
      simp only [List.length_append, List.length_map, List.length_cons]
        at hlength
      rcases findings with _ | ⟨⟨first, value⟩, _ | ⟨⟨second, value'⟩, later⟩⟩
      · obtain ⟨rfl, -⟩ := List.cons.inj h
        exact absurd (hfails.symm.trans hnote) (by simp)
      · obtain ⟨rfl, htail⟩ := List.cons.inj h
        obtain ⟨rfl, -⟩ := List.cons.inj htail
        obtain rfl := hfirst rfl
        exact absurd (hfails.symm.trans hname) (by simp)
      · obtain ⟨rfl, htail⟩ := List.cons.inj h
        obtain ⟨rfl, -⟩ := List.cons.inj htail
        obtain rfl := hfirst rfl
        obtain rfl : value' = "Ada" :=
          Except.ok.inj ((hevaluated [_] _ _ rfl).symm.trans hname)
        have hlater : later = [] := by
          simp only [List.length_cons, List.length_nil] at hlength
          exact List.eq_nil_of_length_eq_zero (by omega)
        rw [hlater]

/-- The note is empty and the name is written when the greeting fails. -/
theorem Session.solveRow_written_halted :
    let solution := (solveRow greetingEnvironment haltedSession.cache haltedRow
      Header.defaultValue).1
    solution.result = .error (.unclosedCall "AND(Ada") ∧
      solution.row.cell? "note" = none ∧
      solution.row.cell? "name" = some ⟨"Ada", some "Ada"⟩ ∧
      solution.row.cell? "greeting" = some (.plain "Hello") := by
  intro solution
  have hreachable : haltedSession.Reachable :=
    .step .start (.define "T" haltedSchema.columns rfl)
  have hschema : haltedRow.schema ∈ haltedSession.schemas := List.mem_cons_self
  have hresult : solution.result = .error (.unclosedCall "AND(Ada") := by
    rw [(solveRow_of_parseAll greetingEnvironment parseAll_halted).2,
      byDependencies_halted]
    decide +kernel
  obtain ⟨-, -, -, hwrites⟩ :=
    Session.solveRow_written hreachable hschema greetingEnvironment
    Header.defaultValue
  obtain ⟨-, findings, hevaluated, hends, -, hrow, -⟩ :=
    hwrites _ parseAll_halted
  change Ends _ _ _ _ _ findings solution.result at hends
  rw [byDependencies_halted, hresult] at hends
  obtain rfl := findings_halted hevaluated hends
  refine ⟨hresult, ?_, ?_, ?_⟩
  · exact hrow.empty ⟨noteFormula, ""⟩ (by simp) rfl
  · exact hrow.values ⟨nameFormula, "Ada"⟩ (by simp) (by decide)
  · exact hrow.others "greeting" (by decide)

end ReportDesk.Formula
