import ReportDesk.Proofs.Formula.Written
import ReportDesk.Proofs.Workbook.Atomic

/-!
# Counts listed before solving

The dependency counts of a table are counted with a memory of their own.  They
list the columns as every batch processes them, whatever its memory holds, and
they cannot be listed exactly when no batch can be parsed.
-/

namespace ReportDesk.Workbook

open Formula (ColumnFormula DependencyCache Environment Faithful byDependencies
  countDependencies parseAll parseColumn parseColumns solveInOrder solveRow)

/-! ## Columns counted and columns parsed -/

def summary (f : ColumnFormula) : ColumnDependencies :=
  ⟨f.column, f.text, f.dependencies⟩

section Count

variable {schema : Schema} {header : String} {columns : List Column}
  {cache cache' : DependencyCache}

private theorem countColumns_of_parseColumns
    (h : Faithful schema (cache.known schema))
    (h' : Faithful schema (cache'.known schema))
    (hcolumns : columns ⊆ schema.columns) (header : String) :
    (∀ formulas, (parseColumns schema header columns cache').1 = .ok formulas →
        countColumns schema header cache columns = .ok (formulas.map summary)) ∧
      ∀ error, (parseColumns schema header columns cache').1 = .error error →
        ∃ column ∈ columns, countColumns schema header cache columns =
          .error ⟨["count dependencies of " ++ column.id], .formula error⟩ := by
  induction columns generalizing cache cache' with
  | nil =>
      refine ⟨fun formulas hparse => ?_, fun error hparse => ?_⟩
      · cases hparse
        rfl
      · cases hparse
  | cons column rest ih =>
      obtain ⟨hcolumn, hrest⟩ := List.cons_subset.mp hcolumns
      obtain ⟨hok, herror⟩ :=
        ih (h.known_count column.id header)
          (h'.known_count column.id header) hrest
      have hcount : (cache'.count schema column.id header).1 =
          (cache.count schema column.id header).1 :=
        Formula.countDependencies_congr h' h column.id
      have hformula : schema.formula column.id header =
          (column.field? header).getD "" := by
        rw [Schema.formula, Schema.column?_of_mem hcolumn]
        rfl
      rw [parseColumns, countColumns]
      simp only [parseColumn, hcount]
      rcases hresult : cache.count schema column.id header with ⟨_ | n, later⟩
      next error =>
        refine ⟨fun formulas hparse => ?_, fun error hparse => ?_⟩
        · cases hparse
        · cases hparse
          exact ⟨column, List.mem_cons_self, rfl⟩
      · rw [hresult] at hok herror
        simp only [Except.map]
        cases hparsed : (parseColumns schema header rest
            (cache'.count schema column.id header).2).1 with
        | error error =>
            obtain ⟨failed, hfailed, hcounted⟩ := herror error hparsed
            simp only [hcounted]
            refine ⟨fun formulas hparse => ?_, fun error hparse => ?_⟩
            · cases hparse
            · cases hparse
              exact ⟨failed, List.mem_cons_of_mem _ hfailed, rfl⟩
        | ok parsed =>
            simp only [hok parsed hparsed, ← hformula]
            refine ⟨fun formulas hparse => ?_, fun error hparse => ?_⟩
            · cases hparse
              rfl
            · cases hparse

private theorem mergeSort_map_summary (formulas : List ColumnFormula) :
    (formulas.map summary).mergeSort
      (fun a b => a.dependencies ≤ b.dependencies) =
      (byDependencies formulas).map summary := by
  have hsame : ∀ f ∈ formulas, ∀ g ∈ formulas,
      decide (f.dependencies ≤ g.dependencies) =
      decide ((summary f).dependencies ≤ (summary g).dependencies) :=
    fun _ _ _ _ => rfl
  exact (List.map_mergeSort hsame).symm

theorem dependencyCounts_of_parseAll {w : Workbook} {table : String}
    (hschema : w.schema table = .ok schema)
    (hcache : Faithful schema (cache.known schema)) :
    (∀ formulas, (parseAll cache schema header).1 = .ok formulas →
        dependencyCounts w table header =
          .ok ((byDependencies formulas).map summary)) ∧
      ∀ error, (parseAll cache schema header).1 = .error error →
        ∃ column ∈ schema.columnsWith header, dependencyCounts w table header =
          .error ⟨["count dependencies of " ++ column.id], .formula error⟩ := by
  have hcolumns : schema.columnsWith header ⊆ schema.columns :=
    List.filter_subset_self _
  obtain ⟨hok, herror⟩ :=
    countColumns_of_parseColumns
      (Formula.faithful_empty schema) hcache hcolumns header
  unfold dependencyCounts
  rw [hschema]
  refine ⟨fun formulas hparse => ?_, fun error hparse => ?_⟩
  · rw [← mergeSort_map_summary]
    simp only [hok formulas hparse]
    rfl
  · obtain ⟨column, hcolumn, hcounted⟩ := herror error hparse
    simp only [hcounted]
    exact ⟨column, hcolumn, rfl⟩

end Count

/-! ## Registered rows -/

section Solve

variable {w : Workbook} {table : String}

theorem answer_sublist (h : Registered w.registry w.store) {solver : Session}
    {header : String} {id : Option RowId} {answers : List SolvedRow}
    (hanswers : (solveTable solver w table header id).result = .ok answers) :
    ∀ answer ∈ answers, ∃ counts, dependencyCounts w table header = .ok counts ∧
      (answer.values.map Prod.fst).Sublist
        (counts.map ColumnDependencies.column) := by
  cases hrows : w.rows table id with
  | error failure =>
      rw [solveTable, hrows] at hanswers
      cases hanswers
  | ok rows =>
      obtain ⟨done, hturns, -, -, hends⟩ :=
        exists_turns_of_rows h.coherent solver header hrows
      rw [hanswers] at hends
      cases hends
      rw [List.forall_mem_map]
      intro turn hturn
      obtain ⟨before, after, hsplit⟩ := List.append_of_mem hturn
      obtain ⟨row, solved, hstored, hsolution, hsolved⟩ :=
        hturns before turn after hsplit
      have hempty := Formula.faithful_empty row.schema
      rw [hsolution] at hsolved
      obtain ⟨formulas, hparse, hsublist⟩ :=
        Formula.exists_formulas_of_solveRow hempty hsolved
      refine ⟨(byDependencies formulas).map summary,
        (dependencyCounts_of_parseAll
          (h table turn.id row hstored).2.2 hempty).1 formulas hparse,
        ?_⟩
      rw [← hsolution] at hsolved
      rw [RowTurn.report, hsolved, List.map_map, List.map_map]
      exact hsublist

end Solve

/-! ## The list of counts -/

/--
The dependency counts of a table fail exactly when the formulas of a row of its
schema cannot be parsed, whatever the memory of counts has learnt.  Otherwise
they list the columns that every batch processes, in its order.  In a workbook
whose rows have the schemas of their tables, which solving keeps so, the columns
of every answer are among those listed and in their order.
-/
theorem dependencyCounts_previews {w : Workbook} {table : String}
    {schema : Schema} (hschema : w.schema table = .ok schema) (header : String)
    {session : Formula.Session} (hsession : session.Reachable)
    (hmem : schema ∈ session.schemas) :
    let parsed := (parseAll session.cache schema header).1
    ((∃ failure, dependencyCounts w table header = .error failure) ↔
        ∃ error, parsed = .error error) ∧
      (∀ error, parsed = .error error → ∃ column ∈ schema.columnsWith header,
        dependencyCounts w table header =
          .error ⟨["count dependencies of " ++ column.id], .formula error⟩) ∧
      (∀ formulas, parsed = .ok formulas →
        dependencyCounts w table header =
            .ok ((byDependencies formulas).map summary) ∧
          ∀ (env : Environment) (row : Row), row.schema = schema →
            (solveRow env session.cache row header).1.row =
                (solveInOrder env header 0 (byDependencies formulas) row).row ∧
              (solveRow env session.cache row header).1.result =
                (solveInOrder env header 0
                  (byDependencies formulas) row).result) ∧
      (Registered w.registry w.store → ∀ solver id,
        Registered w.registry (solveTable solver w table header id).store ∧
          ∀ answers, (solveTable solver w table header id).result =
              .ok answers →
            ∀ answer ∈ answers, ∃ counts,
                dependencyCounts w table header = .ok counts ∧
              (answer.values.map Prod.fst).Sublist
                (counts.map ColumnDependencies.column)) := by
  intro parsed
  obtain ⟨hok, herror⟩ :=
    dependencyCounts_of_parseAll hschema
      (hsession.consistent.known_faithful hmem)
  refine ⟨⟨?_, ?_⟩, herror, fun formulas hparse => ⟨hok formulas hparse, ?_⟩,
    fun hregistered solver id =>
      ⟨registered_solveTable hregistered solver table header id,
      fun answers hanswers => answer_sublist hregistered hanswers⟩⟩
  · rintro ⟨failure, hfailure⟩
    cases hparse : parsed with
    | error error => exact ⟨error, rfl⟩
    | ok formulas =>
        rw [hok formulas hparse] at hfailure
        cases hfailure
  · rintro ⟨error, hparse⟩
    obtain ⟨column, -, hcounted⟩ := herror error hparse
    exact ⟨_, hcounted⟩
  · rintro env row rfl
    exact Formula.solveRow_of_parseAll env hparse

/-! ### The columns of a greeting -/

def greetingRows : WorkbookFile where
  schemas := [⟨"T", Formula.greetingSchema.columns, 0, by decide⟩]
  rows := .ofList [("T", [⟨some 1, .ofList [("source", .plain "Adam")]⟩])]

private theorem schema_greeting :
    (loaded greetingRows).schema "T" = .ok Formula.greetingSchema := by
  decide +kernel

theorem solveTable_greeting :
    (solveTable firstSession
        (loaded greetingRows) "T" Header.defaultValue none).result =
      .ok [⟨some 1, [("name", "Ada"), ("greeting", "Dear Ada")]⟩] := by
  let row : Row := { Formula.greetingRow with id := some 1 }
  let env := firstSession.environment (loaded greetingRows).store 0
  have hrows : (loaded greetingRows).rows "T" none = .ok [row] := by
    decide +kernel
  have hparse : (parseAll .empty row.schema Header.defaultValue).1 =
      .ok [Formula.greetingFormula, Formula.noteFormula,
        Formula.nameFormula] := by
    decide +kernel
  have hsolved : (solveRow env .empty row Header.defaultValue).1.result =
      .ok [{ Formula.nameFormula with solved := some "Ada" },
        { Formula.greetingFormula with solved := some "Dear Ada" }] := by
    rw [(Formula.solveRow_of_parseAll env hparse).2,
      Formula.byDependencies_greeting]
    decide +kernel
  obtain ⟨hschema, hid⟩ :=
    Formula.solveRow_frame env .empty row Header.defaultValue
  have hstored : ((loaded greetingRows).store.get? "T" 1).isSome = true := by
    decide +kernel
  have htable : (solveRow env .empty row Header.defaultValue).1.row.table =
      "T" :=
    congrArg Schema.sheetName hschema
  have hupdate := Store.update_of_get? hid (htable.symm ▸ hstored)
  rw [(solveTable_of_rows firstSession Header.defaultValue hrows).2,
    (solveRows_cons_ok "T" [] hsolved hupdate).2, hid]
  rfl

def countedSession : Formula.Session :=
  { Formula.greetingSession with
    cache := (DependencyCache.empty.count Formula.greetingSchema "greeting"
      Header.defaultValue).2 }

theorem dependencyCounts_previews_greeting :
    dependencyCounts (loaded greetingRows) "T" Header.defaultValue =
        .ok [⟨"note", "%memo.code", 0⟩,
          ⟨"name", "LEFT_TRIM(%source.code,3)", 1⟩,
          ⟨"greeting", "Dear %name.label", 2⟩] ∧
      ["name", "greeting"].Sublist ["note", "name", "greeting"] := by
  have hreachable : countedSession.Reachable :=
    .step Formula.reachable_greetingSession
      (.count List.mem_cons_self "greeting" _)
  have hparse :
      (parseAll countedSession.cache Formula.greetingSchema
        Header.defaultValue).1 =
      .ok [Formula.greetingFormula, Formula.noteFormula,
        Formula.nameFormula] := by
    decide +kernel
  obtain ⟨-, -, hok, hanswers⟩ :=
    dependencyCounts_previews schema_greeting Header.defaultValue
    hreachable List.mem_cons_self
  obtain ⟨hcounts, -⟩ := hok _ hparse
  rw [Formula.byDependencies_greeting] at hcounts
  obtain ⟨-, hsublist⟩ :=
    hanswers (registered_loaded greetingRows) firstSession none
  obtain ⟨counts, hlisted, hcolumns⟩ :=
    hsublist _ solveTable_greeting _ List.mem_cons_self
  obtain rfl := Except.ok.inj (hcounts.symm.trans hlisted)
  exact ⟨hcounts, hcolumns⟩

end ReportDesk.Workbook
