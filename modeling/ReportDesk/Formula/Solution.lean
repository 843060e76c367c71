import ReportDesk.Formula.Dependency
import ReportDesk.Formula.Evaluation

/-!
# Solving the formulas of a row

The formulas under one header are solved by ascending dependency count, and
each value is written into the row before the next formula is solved.
-/

namespace ReportDesk.Formula

structure ColumnFormula where
  column : String
  header : String
  text : String
  dependencies : Nat
  solved : Option String
deriving DecidableEq, Repr

def ColumnFormula.solvedText (f : ColumnFormula) : String :=
  f.solved.getD ""

def parseColumn (cache : DependencyCache) (schema : Schema)
    (column header : String) : Except Error ColumnFormula × DependencyCache :=
  let (count, cache) := cache.count schema column header
  (count.map fun n =>
    ⟨column, header, schema.formula column header, n, none⟩, cache)

def parseColumns (schema : Schema) (header : String) :
    List Column → DependencyCache →
      Except Error (List ColumnFormula) × DependencyCache
  | [], cache => (.ok [], cache)
  | column :: rest, cache =>
      match parseColumn cache schema column.id header with
      | (.error error, cache) => (.error error, cache)
      | (.ok formula, cache) =>
          let (formulas, cache) := parseColumns schema header rest cache
          (formulas.map (formula :: ·), cache)

def parseAll (cache : DependencyCache) (schema : Schema) (header : String) :
    Except Error (List ColumnFormula) × DependencyCache :=
  parseColumns schema header (schema.columnsWith header) cache

/-- By ascending count; formulas with equal counts keep their order. -/
def byDependencies (formulas : List ColumnFormula) : List ColumnFormula :=
  formulas.mergeSort fun f g => f.dependencies ≤ g.dependencies

def solveFormula (env : Environment) (cache : DependencyCache) (row : Row)
    (column header : String) : Logged Error ColumnFormula × DependencyCache :=
  let (formula, cache) := parseColumn cache row.schema column header
  let solved : Logged Error ColumnFormula := do
    let formula ← .ofExcept formula
    return { formula with solved := some (← solveColumn env row column header) }
  (solved, cache)

structure RowSolution where
  row : Row
  events : List Log.Event
  result : Except Error (List ColumnFormula)

/--
Solves the formulas in the given order.  A value that is not empty is written
into the row; the formulas with such a value are the result.
-/
def solveInOrder (env : Environment) (header : String) :
    Nat → List ColumnFormula → Row → RowSolution
  | _, [], row => ⟨row, [], .ok []⟩
  | index, formula :: rest, row =>
      let solved := solveColumn (env.child index) row formula.column header
      match solved.result with
      | .error error => ⟨row, solved.events, .error error⟩
      | .ok value =>
          if value.isEmpty then
            let later := solveInOrder env header (index + 1) rest row
            { later with events := solved.events ++ later.events }
          else
            let written :=
              Log.Event.columnWritten formula.column formula.dependencies value
            let later :=
              solveInOrder env header (index + 1) rest
                (row.write formula.column value header)
            { later with
              events := solved.events ++ written :: later.events
              result :=
                later.result.map ({ formula with solved := some value } :: ·) }

def solveRow (env : Environment) (cache : DependencyCache) (row : Row)
    (header : String) : RowSolution × DependencyCache :=
  match parseAll cache row.schema header with
  | (.error error, cache) => (⟨row, [], .error error⟩, cache)
  | (.ok formulas, cache) =>
      let solution := solveInOrder env header 0 (byDependencies formulas) row
      match solution.result with
      | .ok solved =>
          let finished := Log.Event.rowSolved row.table header solved.length
          ({ solution with events := solution.events ++ [finished] }, cache)
      | .error _ => (solution, cache)

end ReportDesk.Formula
