import ReportDesk.Formula.Solution
import ReportDesk.Proofs.Formula.Locality
import ReportDesk.Proofs.Table.Row

/-!
# The turns of a batch

Each formula of a batch has a turn, in which it is evaluated against the row as
the turns before have left it.  A turn writes the cell of its own column and no
other, so a cell is settled once the turn of its column is over.
-/

namespace ReportDesk.Formula

/-! ## Findings -/

structure Finding where
  formula : ColumnFormula
  value : String

def written (header : String) (row : Row) (findings : List Finding) : Row :=
  (findings.filter fun f => !f.value.isEmpty).foldl
    (fun row f => row.write f.formula.column f.value header) row

/-- The formulas with a value that is not empty, as a batch answers them. -/
def answered (findings : List Finding) : List ColumnFormula :=
  (findings.filter fun f => !f.value.isEmpty).map fun f =>
    { f.formula with solved := some f.value }

variable {env : Environment} {header : String} {row : Row} {index : Nat}
  {finding : Finding} {findings : List Finding} {formulas : List ColumnFormula}

theorem written_cons (header : String) (row : Row) (finding : Finding)
    (findings : List Finding) :
    written header row (finding :: findings) =
      written header
        (row.keep finding.formula.column finding.value header) findings := by
  cases hempty : finding.value.isEmpty with
  | true => simp [written, Row.keep, hempty]
  | false => simp [written, Row.keep, hempty]

theorem written_append (header : String) (row : Row)
    (findings findings' : List Finding) :
    written header row (findings ++ findings') =
      written header (written header row findings) findings' := by
  simp [written]

theorem answered_append (findings findings' : List Finding) :
    answered (findings ++ findings') =
      answered findings ++ answered findings' := by
  simp [answered]

theorem answered_cons (finding : Finding) (findings : List Finding) :
    answered (finding :: findings) =
      if finding.value.isEmpty then answered findings
      else { finding.formula with solved := some finding.value } ::
        answered findings := by
  cases hempty : finding.value.isEmpty with
  | true => simp [answered, hempty]
  | false => simp [answered, hempty]

theorem not_mem_answered
    (hnodup : (findings.map fun f => f.formula.column).Nodup)
    (hmem : finding ∈ findings) (hempty : finding.value = "") :
    finding.formula.column ∉ (answered findings).map ColumnFormula.column := by
  intro hcolumn
  simp only [answered, List.map_map, List.mem_map, Function.comp] at hcolumn
  obtain ⟨other, hother, hsame⟩ := hcolumn
  obtain ⟨hother, hvalue⟩ := List.mem_filter.mp hother
  rw [List.inj_on_of_nodup_map hnodup hother hmem hsame, hempty] at hvalue
  exact absurd hvalue (by decide)

theorem answered_sublist (findings : List Finding) :
    ((answered findings).map ColumnFormula.column).Sublist
      ((findings.map Finding.formula).map ColumnFormula.column) := by
  rw [answered, List.map_map, List.map_map]
  exact List.filter_sublist.map _

/-! ## What is left alone -/

theorem written_eq_self
    (h : ∀ f ∈ findings, row.keep f.formula.column f.value header = row) :
    written header row findings = row := by
  induction findings with
  | nil => rfl
  | cons finding rest ih =>
      rw [List.forall_mem_cons] at h
      rw [written_cons, h.1, ih h.2]

theorem view_written {α : Type} (view : Row → α)
    (h : ∀ f ∈ findings, f.value.isEmpty = false →
      ∀ row : Row, view (row.write f.formula.column f.value header) = view row)
    (row : Row) :
    view (written header row findings) = view row := by
  induction findings generalizing row with
  | nil => rfl
  | cons finding rest ih =>
      rw [List.forall_mem_cons] at h
      rw [written_cons, ih h.2, Row.keep]
      split
      · rfl
      next hvalue => exact h.1 (Bool.eq_false_iff.mpr hvalue) row

theorem schema_written (row : Row) :
    (written header row findings).schema = row.schema :=
  view_written Row.schema (fun _ _ _ row => row.schema_write _ _ _) row

theorem id_written (row : Row) : (written header row findings).id = row.id :=
  view_written Row.id (fun _ _ _ row => row.id_write _ _ _) row

theorem cell?_written_of_not_mem (row : Row) {column : String}
    (h : column ∉ findings.map fun f => f.formula.column) :
    (written header row findings).cell? column = row.cell? column := by
  refine view_written (fun row => row.cell? column) (fun f hf _ row => ?_) row
  refine Row.cell?_write_of_ne _ _ _ ?_
  rintro rfl
  exact h (List.mem_map_of_mem hf)

theorem cell?_written_of_mem (row : Row)
    (hnodup : (findings.map fun f => f.formula.column).Nodup)
    (hmem : finding ∈ findings) :
    (written header row findings).cell? finding.formula.column =
      (row.keep finding.formula.column finding.value header).cell?
        finding.formula.column := by
  obtain ⟨before, after, rfl⟩ := List.append_of_mem hmem
  rw [List.map_append, List.map_cons, List.nodup_middle, List.nodup_cons,
    List.mem_append, not_or] at hnodup
  obtain ⟨⟨hbefore, hafter⟩, -⟩ := hnodup
  have hcell : (written header row before).cell? finding.formula.column =
      row.cell? finding.formula.column := cell?_written_of_not_mem row hbefore
  rw [written_append, written_cons, cell?_written_of_not_mem _ hafter,
    Row.keep, Row.keep]
  split
  · exact hcell
  · rw [Row.cell?_write_self, Row.cell?_write_self, hcell]

/-! ## The run of a batch -/

def evaluation (env : Environment) (header : String) :
    Run Row ColumnFormula Finding where
  item := Finding.formula
  after := written header
  makes index row finding :=
    (solveColumn (env.child index) row finding.formula.column header).result =
      .ok finding.value
  after_nil _ := rfl
  after_append := written_append header

/--
Each value is found on the row into which the values before it are written.
-/
def Evaluated (env : Environment) (header : String) (index : Nat) (row : Row)
    (findings : List Finding) : Prop :=
  (evaluation env header).Makes index row findings

/--
A batch ends behind its last formula, or before one that fails on the row so
far.
-/
def Ends (env : Environment) (header : String) (index : Nat) (row : Row)
    (formulas : List ColumnFormula) (findings : List Finding) :
    Except Error (List ColumnFormula) → Prop :=
  (evaluation env header).Ends
    (fun index row formula error =>
      (solveColumn (env.child index) row formula.column header).result =
        .error error)
    answered index row formulas findings

section Step

variable {formula : ColumnFormula} {rest : List ColumnFormula}

theorem solveInOrder_error {error : Error}
    (h : (solveColumn (env.child index) row formula.column header).result =
      .error error) :
    (solveInOrder env header index (formula :: rest) row).row = row ∧
      (solveInOrder env header index (formula :: rest) row).result =
        .error error := by
  rw [solveInOrder]
  simp only [h, and_self]

theorem row_solveInOrder {value : String}
    (h : (solveColumn (env.child index) row formula.column header).result =
      .ok value) :
    (solveInOrder env header index (formula :: rest) row).row =
      (solveInOrder env header (index + 1) rest
        (row.keep formula.column value header)).row := by
  rw [solveInOrder]
  simp only [h, Row.keep]
  split
  · rfl
  · rfl

theorem result_solveInOrder {value : String}
    (h : (solveColumn (env.child index) row formula.column header).result =
      .ok value) :
    (solveInOrder env header index (formula :: rest) row).result =
      (solveInOrder env header (index + 1) rest
        (row.keep formula.column value header)).result.map fun solved =>
          if value.isEmpty then solved
          else { formula with solved := some value } :: solved := by
  rw [solveInOrder]
  simp only [h, Row.keep]
  split
  · cases (solveInOrder env header (index + 1) rest row).result <;> rfl
  · rfl

end Step

theorem Ends.map_prefix {result : Except Error (List ColumnFormula)}
    (h : Ends env header index row formulas findings result) :
    findings.map Finding.formula <+: formulas :=
  Run.Ends.map_prefix h

theorem Ends.of_ok {solved : List ColumnFormula}
    (h : Ends env header index row formulas findings (.ok solved)) :
    formulas = findings.map Finding.formula ∧ solved = answered findings :=
  Run.Ends.of_ok h

theorem evaluated_cons : Evaluated env header index row (finding :: findings) ↔
    (solveColumn (env.child index) row finding.formula.column header).result =
        .ok finding.value ∧
      Evaluated env header (index + 1)
        (row.keep finding.formula.column finding.value header) findings := by
  have hnext : (evaluation env header).after row [finding] =
      row.keep finding.formula.column finding.value header :=
    written_cons header row finding []
  rw [Evaluated, Run.makes_cons, hnext]
  rfl

/--
The formulas behind the findings are a batch over the row that these have left.
-/
theorem solveInOrder_of_evaluated (h : Evaluated env header index row findings)
    (rest : List ColumnFormula) :
    (solveInOrder env header index
      (findings.map Finding.formula ++ rest) row).row =
        (solveInOrder env header (index + findings.length) rest
          (written header row findings)).row ∧
      (solveInOrder env header index
          (findings.map Finding.formula ++ rest) row).result =
        (solveInOrder env header (index + findings.length) rest
          (written header row findings)).result.map
        (answered findings ++ ·) := by
  induction findings generalizing index row with
  | nil =>
      change _ ∧ _ = (solveInOrder env header index rest row).result.map id
      rw [Except.map_id]
      exact ⟨rfl, rfl⟩
  | cons finding findings ih =>
      obtain ⟨hvalue, hrest⟩ := evaluated_cons.mp h
      obtain ⟨hrow, hresult⟩ := ih hrest
      rw [Nat.add_assoc, Nat.add_comm 1, ← written_cons] at hrow hresult
      rw [List.map_cons, List.cons_append, row_solveInOrder hvalue,
        result_solveInOrder hvalue, hrow, hresult, List.length_cons]
      refine ⟨rfl, ?_⟩
      generalize (solveInOrder env header _ rest _).result = later
      cases later with
      | error error => rfl
      | ok solved =>
          rw [answered_cons]
          simp only [Except.map]
          split <;> rfl

theorem solveInOrder_of_ends {result : Except Error (List ColumnFormula)}
    (h : Evaluated env header index row findings)
    (hends : Ends env header index row formulas findings result) :
    (solveInOrder env header index formulas row).row =
        written header row findings ∧
      (solveInOrder env header index formulas row).result = result := by
  cases hends with
  | finished hformulas =>
      obtain ⟨hrow, hresult⟩ := solveInOrder_of_evaluated h []
      change formulas = findings.map Finding.formula at hformulas
      rw [hformulas, ← List.append_nil (findings.map _), hrow, hresult]
      exact ⟨rfl, congrArg Except.ok (List.append_nil _)⟩
  | @stopped failing rest error hformulas hfails =>
      obtain ⟨hrow, hresult⟩ := solveInOrder_of_evaluated h (failing :: rest)
      have hstops : (solveColumn (env.child (index + findings.length))
          (written header row findings) failing.column header).result =
            .error error := hfails
      change formulas = findings.map Finding.formula ++ failing :: rest
        at hformulas
      rw [hformulas, hrow, hresult, (solveInOrder_error hstops).1,
        (solveInOrder_error hstops).2]
      exact ⟨rfl, rfl⟩

theorem exists_findings (env : Environment) (header : String)
    (formulas : List ColumnFormula) (index : Nat) (row : Row) :
    ∃ findings, Evaluated env header index row findings ∧
      (solveInOrder env header index formulas row).row =
        written header row findings ∧
      Ends env header index row formulas findings
        (solveInOrder env header index formulas row).result := by
  have hsteps (index : Nat) (row : Row) : ∀ formula ∈ formulas,
      (∃ finding, (evaluation env header).item finding = formula ∧
          (evaluation env header).makes index row finding) ∨
        ∃ error,
          (solveColumn (env.child index) row formula.column header).result =
          .error error := by
    intro formula _
    cases hvalue :
      (solveColumn (env.child index) row formula.column header).result with
    | error error => exact .inr ⟨error, rfl⟩
    | ok value => exact .inl ⟨⟨formula, value⟩, rfl, hvalue⟩
  obtain ⟨findings, result, hevaluated, hends⟩ :=
    Run.exists_makes _ answered hsteps index row
  obtain ⟨hrow, hresult⟩ := solveInOrder_of_ends hevaluated hends
  exact ⟨findings, hevaluated, hrow, hresult ▸ hends⟩

theorem row_solveInOrder_frame (env : Environment) (header : String)
    (formulas : List ColumnFormula) (index : Nat) (row : Row) :
    (solveInOrder env header index formulas row).row.schema = row.schema ∧
      (solveInOrder env header index formulas row).row.id = row.id := by
  obtain ⟨findings, -, hrow, -⟩ := exists_findings env header formulas index row
  rw [hrow]
  exact ⟨schema_written row, id_written row⟩

/-! ## Turns -/

structure Turn where
  env : Environment
  row : Row
  formula : ColumnFormula

def Turn.result (turn : Turn) (header : String) : Except Error String :=
  (solveColumn turn.env turn.row turn.formula.column header).result

/-- The turns of the formulas, up to the first one that fails. -/
def turns (env : Environment) (header : String) :
    Nat → List ColumnFormula → Row → List Turn
  | _, [], _ => []
  | index, formula :: rest, row =>
      ⟨env.child index, row, formula⟩ ::
        match (solveColumn (env.child index) row formula.column header).result
          with
        | .error _ => []
        | .ok value =>
          turns env header (index + 1) rest
          (row.keep formula.column value header)

theorem mem_turns_of_evaluated (h : Evaluated env header index row findings)
    (formula : ColumnFormula) (rest : List ColumnFormula) :
    ⟨env.child (index + findings.length), written header row findings,
      formula⟩ ∈
      turns env header index
        (findings.map Finding.formula ++ formula :: rest) row := by
  induction findings generalizing index row with
  | nil => exact List.mem_cons_self
  | cons finding findings ih =>
      obtain ⟨hvalue, hrest⟩ := evaluated_cons.mp h
      have hlater := ih hrest
      rw [Nat.add_assoc, Nat.add_comm 1, ← written_cons] at hlater
      rw [List.map_cons, List.cons_append, turns, hvalue]
      exact List.mem_cons_of_mem _ hlater

end ReportDesk.Formula
