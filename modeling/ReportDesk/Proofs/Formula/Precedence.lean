import ReportDesk.Proofs.Formula.FixedPoint

/-!
# What is solved before what

The counts grow along every chain of references, so that sorting by them puts a
column behind all columns of the batch that its value may depend on.  Columns
with equal counts stay in the order of the schema.
-/

namespace ReportDesk.Formula

variable {schema : Schema} {header column other : String}

/-! ## Chains of references -/

def Refers (schema : Schema) (header column other : String) : Prop :=
  (∃ c ∈ schema.columns, c.id = other) ∧
    0 < countReferences (schema.formula column header) other

/--
A chain of references; the columns between need not be solved under the header.
-/
def DependsOn (schema : Schema) (header : String) : String → String → Prop :=
  Relation.TransGen (Refers schema header)

private theorem Refers.eq_or_needs (h : Refers schema header column other) :
    other = column ∨ Needs schema header column other := by
  obtain ⟨⟨c, hc, rfl⟩, hcounted⟩ := h
  by_cases hself : c.id = column
  · exact .inl hself
  · have hcount : countReferences (schema.formula column header) c.id ≠ 0 := by
      omega
    exact .inr ⟨c, by simp [needed, hc, hself, hcount], rfl⟩

theorem DependsOn.leads (h : DependsOn schema header column other)
    (hne : other ≠ column) :
    Relation.TransGen (Needs schema header) column other := by
  have hleads : Relation.ReflTransGen (Needs schema header) column other := by
    apply h.to_reflTransGen.lift' id
    intro passed next hrefers
    rcases hrefers.eq_or_needs with rfl | hneeds
    · exact .refl
    · exact .single hneeds
  exact (Relation.reflTransGen_iff_eq_or_transGen.mp hleads).resolve_left hne

/-! ## Places in a sorted batch -/

private theorem Arranged.pair_sublist_of_lt {batch : List ColumnFormula}
    {f g : ColumnFormula} (h : Arranged schema header batch) (hf : f ∈ batch)
    (hg : g ∈ batch)
    (hlt : f.dependencies < g.dependencies) : [f, g].Sublist batch := by
  obtain ⟨before, after, rfl⟩ := List.append_of_mem hf
  have hlater : g ∈ after := by
    rcases List.mem_append.mp hg with hbefore | hfrom
    · have hle :=
        (List.pairwise_append.mp h.sorted).2.2 g hbefore f List.mem_cons_self
      omega
    · rcases List.mem_cons.mp hfrom with rfl | hafter
      · omega
      · exact hafter
  have hpair : [f, g].Sublist (f :: after) :=
    (List.singleton_sublist.mpr hlater).cons_cons f
  exact hpair.trans (List.sublist_append_right before (f :: after))

/-! ## The order of a batch -/

/--
Whatever was counted before, a batch whose formulas are parsed is solved in an
order of the columns that have the header; each of them comes after the other
ones that it depends on, and those with the same count keep their order.
-/
theorem Session.solveRow_order {session : Session} (h : session.Reachable)
    {row : Row} (hschema : row.schema ∈ session.schemas)
    {formulas : List ColumnFormula}
    (hparse : (parseAll session.cache row.schema header).1 = .ok formulas) :
    let batch := byDependencies formulas
    let order := batch.map ColumnFormula.column
    let columns := (row.schema.columnsWith header).map Column.id
    (∀ env, (solveRow env session.cache row header).1.row =
        (solveInOrder env header 0 batch row).row ∧
      (solveRow env session.cache row header).1.result =
        (solveInOrder env header 0 batch row).result) ∧
    order.Perm columns ∧
    (∀ column ∈ columns, ∀ other ∈ columns, other ≠ column →
      DependsOn row.schema header column other →
        [other, column].Sublist order) ∧
    (∀ column other, [column, other].Sublist columns →
      (session.cache.count row.schema column header).1 =
        (session.cache.count row.schema other header).1 →
          [column, other].Sublist order) := by
  have hknown := h.consistent.known_faithful hschema
  have hparsed := parsed_of_parseColumns hknown hparse
  have hperm : (byDependencies formulas).Perm formulas :=
    List.mergeSort_perm _ _
  have hcolumns := hparsed.columns
  refine ⟨fun env => solveRow_of_parseAll env hparse, ?_, ?_, ?_⟩
  · rw [← hcolumns]
    exact hperm.map _
  · intro column hcolumn other hother hne hdepends
    rw [← hcolumns] at hcolumn hother
    obtain ⟨f, hf, rfl⟩ := List.mem_map.mp hcolumn
    obtain ⟨g, hg, rfl⟩ := List.mem_map.mp hother
    obtain ⟨m, hm, hlt⟩ :=
      (hparsed.weighs f hf).lt_of_leads (hdepends.leads hne)
    rw [hm.unique (hparsed.weighs g hg)] at hlt
    exact (hparsed.arranged.pair_sublist_of_lt (hperm.mem_iff.mpr hg)
      (hperm.mem_iff.mpr hf) hlt).map ColumnFormula.column
  · intro column other hpair hcount
    rw [← hcolumns] at hpair
    obtain ⟨pair, hsublist, hboth⟩ := List.sublist_map_iff.mp hpair
    obtain ⟨f, g, rfl⟩ : ∃ f g, pair = [f, g] :=
      List.length_eq_two.mp (by simpa using (congrArg List.length hboth).symm)
    obtain ⟨rfl, rfl⟩ : column = f.column ∧
      other = g.column := by simpa using hboth
    have hcounted {k : ColumnFormula} (hk : k ∈ [f, g]) :
        (session.cache.count row.schema k.column header).1 =
          .ok k.dependencies :=
      (countDependencies_eq_ok_iff hknown k.column k.dependencies).mpr
        (hparsed.weighs k (hsublist.subset hk))
    rw [hcounted (k := f) (by simp), hcounted (k := g) (by simp),
      Except.ok.injEq] at hcount
    exact (pair_sublist_byDependencies hsublist hcount.le).map
      ColumnFormula.column

/--
The greeting stands first in the schema and needs the name, so it comes last.
-/
theorem Session.solveRow_order_greeting :
    greetingSession.Reachable ∧ greetingRow.schema ∈ greetingSession.schemas ∧
      (parseAll greetingSession.cache greetingRow.schema
          Header.defaultValue).1 =
        .ok [greetingFormula, noteFormula, nameFormula] ∧
      DependsOn greetingSchema Header.defaultValue "greeting" "name" ∧
      ["name", "greeting"].Sublist
        ((byDependencies [greetingFormula, noteFormula, nameFormula]).map
          ColumnFormula.column) := by
  have hschema : greetingRow.schema ∈ greetingSession.schemas :=
    List.mem_cons_self
  have hdepends :
      DependsOn greetingRow.schema Header.defaultValue "greeting" "name" :=
    .single ⟨by decide +kernel, by decide +kernel⟩
  obtain ⟨-, -, horder, -⟩ :=
    Session.solveRow_order reachable_greetingSession hschema parseAll_greeting
  refine ⟨reachable_greetingSession, hschema, parseAll_greeting, hdepends, ?_⟩
  exact horder "greeting" (by decide +kernel) "name" (by decide +kernel)
    (by decide) hdepends

end ReportDesk.Formula
