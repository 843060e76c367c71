import ReportDesk.Formula.Solution
import ReportDesk.Proofs.Dependency.Session
import ReportDesk.Proofs.Table.Row

/-!
# The order of a batch

The formulas of a batch carry the weights of their columns and stand in the
order of these weights.  What a formula needs stands before it.
-/

namespace ReportDesk.Formula

variable {schema : Schema} {header : String}

/-! ## Unsolved formulas -/

theorem Faithful.known_count {cache : DependencyCache}
    (h : Faithful schema (cache.known schema)) (column header : String) :
    Faithful schema ((cache.count schema column header).2.known schema) := by
  have hknown : (cache.count schema column header).2.known schema =
      (countDependencies schema header (cache.known schema) column).2 := by
    simp [DependencyCache.count, DependencyCache.known]
  rw [hknown]
  exact countDependencies_faithful h column

theorem parseColumns_congr {columns : List Column}
    {cache cache' : DependencyCache} (h : Faithful schema (cache.known schema))
    (h' : Faithful schema (cache'.known schema)) :
    (parseColumns schema header columns cache).1 =
      (parseColumns schema header columns cache').1 := by
  induction columns generalizing cache cache' with
  | nil => rfl
  | cons column rest ih =>
      have hcount : (cache.count schema column.id header).1 =
          (cache'.count schema column.id header).1 :=
        countDependencies_congr h h' column.id
      have hrest := ih (h.known_count column.id header)
        (h'.known_count column.id header)
      rw [parseColumns, parseColumns]
      simp only [parseColumn, ← hcount]
      cases (cache.count schema column.id header).1 with
      | error error => rfl
      | ok n =>
          simp only [Except.map, hrest]

structure Parsed (schema : Schema) (header : String) (columns : List Column)
    (formulas : List ColumnFormula) : Prop where
  columns : formulas.map ColumnFormula.column = columns.map Column.id
  unsolved : ∀ f ∈ formulas,
    f = ⟨f.column, header, schema.formula f.column header, f.dependencies, none⟩
  weighs : ∀ f ∈ formulas, Weighs schema header f.column f.dependencies

theorem parsed_of_parseColumns {columns : List Column} {cache : DependencyCache}
    {formulas : List ColumnFormula} (h : Faithful schema (cache.known schema))
    (hparse : (parseColumns schema header columns cache).1 = .ok formulas) :
    Parsed schema header columns formulas := by
  induction columns generalizing cache formulas with
  | nil =>
      cases hparse
      exact ⟨rfl, fun f hmem => absurd hmem List.not_mem_nil,
        fun f hmem => absurd hmem List.not_mem_nil⟩
  | cons column rest ih =>
      rw [parseColumns] at hparse
      simp only [parseColumn] at hparse
      cases hcount : (cache.count schema column.id header).1 with
      | error error =>
          rw [hcount] at hparse
          cases hparse
      | ok n =>
          rw [hcount] at hparse
          simp only [Except.map] at hparse
          have hweighs : Weighs schema header column.id n :=
            (countDependencies_eq_ok_iff h column.id n).mp hcount
          cases hrest : (parseColumns schema header rest
              (cache.count schema column.id header).2).1 with
          | error error =>
              rw [hrest] at hparse
              cases hparse
          | ok later =>
              rw [hrest] at hparse
              cases hparse
              obtain ⟨hcolumns, hunsolved, hlater⟩ :=
                ih (h.known_count column.id header) hrest
              refine ⟨?_, ?_, ?_⟩
              · rw [List.map_cons, List.map_cons, hcolumns]
              · rw [List.forall_mem_cons]
                exact ⟨rfl, hunsolved⟩
              · rw [List.forall_mem_cons]
                exact ⟨hweighs, hlater⟩

theorem Session.reachable_parseColumns {session : Session}
    (h : session.Reachable) (hschema : schema ∈ session.schemas)
    (header : String) (columns : List Column) :
    Reachable { session with
      cache := (parseColumns schema header columns session.cache).2 } := by
  induction columns generalizing session with
  | nil => exact h
  | cons column rest ih =>
      have hcounted := h.step (.count hschema column.id header)
      rw [parseColumns]
      simp only [parseColumn]
      cases (session.cache.count schema column.id header).1 with
      | error error => exact hcounted
      | ok n => exact ih hcounted hschema

/-! ## The order -/

/-- Formulas of distinct columns by ascending weight. -/
structure Arranged (schema : Schema) (header : String)
    (formulas : List ColumnFormula) : Prop where
  weighs : ∀ f ∈ formulas, Weighs schema header f.column f.dependencies
  sorted : formulas.Pairwise fun f g => f.dependencies ≤ g.dependencies
  nodup : (formulas.map ColumnFormula.column).Nodup

private theorem dependencies_trans (f g k : ColumnFormula)
    (hfg : decide (f.dependencies ≤ g.dependencies) = true)
    (hgk : decide (g.dependencies ≤ k.dependencies) = true) :
    decide (f.dependencies ≤ k.dependencies) = true := by
  rw [decide_eq_true_eq] at hfg hgk ⊢
  omega

private theorem dependencies_total (f g : ColumnFormula) :
    (decide (f.dependencies ≤ g.dependencies) ||
      decide (g.dependencies ≤ f.dependencies)) = true := by
  rw [Bool.or_eq_true, decide_eq_true_eq, decide_eq_true_eq]
  omega

private theorem pairwise_byDependencies (formulas : List ColumnFormula) :
    (byDependencies formulas).Pairwise fun f g =>
      f.dependencies ≤ g.dependencies := by
  have hsorted : (byDependencies formulas).Pairwise fun f g =>
      decide (f.dependencies ≤ g.dependencies) = true :=
    List.pairwise_mergeSort dependencies_trans dependencies_total formulas
  exact hsorted.imp fun h => of_decide_eq_true h

theorem pair_sublist_byDependencies {formulas : List ColumnFormula}
    {f g : ColumnFormula} (h : [f, g].Sublist formulas)
    (hle : f.dependencies ≤ g.dependencies) :
    [f, g].Sublist (byDependencies formulas) :=
  List.pair_sublist_mergeSort dependencies_trans dependencies_total
    (by simpa using hle) h

theorem Parsed.arranged {formulas : List ColumnFormula}
    (h : Parsed schema header (schema.columnsWith header) formulas) :
    Arranged schema header (byDependencies formulas) := by
  have hperm : (byDependencies formulas).Perm formulas :=
    List.mergeSort_perm _ _
  refine ⟨fun f hmem => h.weighs f (hperm.mem_iff.mp hmem),
    pairwise_byDependencies formulas, ?_⟩
  rw [(hperm.map ColumnFormula.column).nodup_iff, h.columns]
  exact schema.nodup_idsWith header

theorem Arranged.not_mem_of_needs {formulas after : List ColumnFormula}
    {f : ColumnFormula} (h : Arranged schema header formulas)
    (hsuffix : f :: after <:+ formulas) {column : String}
    (hneeds : Needs schema header f.column column) :
    column ∉ (f :: after).map ColumnFormula.column := by
  intro hmem
  obtain ⟨g, hg, rfl⟩ := List.mem_map.mp hmem
  have hsorted := h.sorted.sublist hsuffix.sublist
  have hle : f.dependencies ≤ g.dependencies := by
    rcases List.mem_cons.mp hg with rfl | hg
    · exact Nat.le_refl _
    · exact (List.pairwise_cons.mp hsorted).1 g hg
  have hweighs := h.weighs g (hsuffix.subset hg)
  obtain ⟨m, hm, hlt⟩ :=
    (h.weighs f (hsuffix.subset List.mem_cons_self)).lt_of_needs hneeds
  have hsame := hm.unique hweighs
  omega

end ReportDesk.Formula
