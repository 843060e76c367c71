import ReportDesk.Formula.Solution
import ReportDesk.Workbook.Basic

/-!
# Solving the tables of a workbook
-/

namespace ReportDesk.Workbook

structure SolvedRow where
  id : Option RowId
  values : List (String × String)
deriving DecidableEq, Repr

structure Session where
  settings : Formula.Settings
  today : Date
  ids : IdSource

def Session.environment (s : Session) (store : Store) (index : Nat) :
    Formula.Environment :=
  ⟨s.settings, s.today, store, s.ids.child index⟩

structure TableSolution where
  store : Store
  events : List Log.Event
  result : Except Failure (List SolvedRow)

def rowContext (row : Row) (table : String) : String :=
  match row.id with
  | some id => "solve row " ++ id.text ++ " of " ++ table
  | none => "solve row of " ++ table

def solveRows (session : Session) (table header : String) :
    Nat → Formula.DependencyCache → Store → List Row → TableSolution
  | _, _, store, [] => ⟨store, [], .ok []⟩
  | index, cache, store, row :: rest =>
      let (solution, cache) :=
        Formula.solveRow (session.environment store index) cache row header
      match solution.result with
      | .error error =>
          ⟨store, solution.events,
            .error ⟨[rowContext solution.row table], .formula error⟩⟩
      | .ok formulas =>
          match store.update solution.row with
          | .error error => ⟨store, solution.events, .error ⟨[], .store error⟩⟩
          | .ok store =>
              let later := solveRows session table header
                (index + 1) cache store rest
              let updated := solution.row.id.toList.map fun id =>
                Log.Event.rowUpdated table id
              let values := formulas.map fun f => (f.column, f.solvedText)
              { later with
                events := solution.events ++ updated ++ later.events
                result := later.result.map (⟨solution.row.id, values⟩ :: ·) }

def withSolution (w : Workbook) (solution : TableSolution) : Workbook :=
  { w with store := solution.store }

/--
Solves the formulas under a header in the rows of a table, or in one of them.
A row that fails ends the solving; the rows before it stay solved.
-/
def solveTable (session : Session) (w : Workbook) (table header : String)
    (id : Option RowId) : TableSolution :=
  match w.rows table id with
  | .error failure => ⟨w.store, [], .error failure⟩
  | .ok rows =>
      let solution := solveRows session table header 0 .empty w.store rows
      match solution.result with
      | .ok solved =>
        { solution with events :=
            solution.events ++ [.tableSolved solved.length] }
      | .error _ => solution

/-! ## Dependency counts -/

structure ColumnDependencies where
  column : String
  formula : String
  dependencies : Nat
deriving DecidableEq, Repr

def countColumns (schema : Schema) (header : String) :
    Formula.DependencyCache → List Column →
      Except Failure (List ColumnDependencies)
  | _, [] => .ok []
  | cache, column :: rest =>
      match cache.count schema column.id header with
      | (.error error, _) =>
          .error ⟨["count dependencies of " ++ column.id], .formula error⟩
      | (.ok count, cache) =>
          (countColumns schema header cache rest).map
            (⟨column.id, (column.field? header).getD "", count⟩ :: ·)

def dependencyCounts (w : Workbook) (table header : String) :
    Except Failure (List ColumnDependencies) :=
  match w.schema table with
  | .error error => .error ⟨[], .schema error⟩
  | .ok schema => do
      let counts ← countColumns schema header .empty (schema.columnsWith header)
      return counts.mergeSort fun a b => a.dependencies ≤ b.dependencies

end ReportDesk.Workbook
