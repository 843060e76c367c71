import ReportDesk.Proofs.Formula.Locality

/-!
# What a formula sees of its row

Apart from the id and the table of a row, an evaluation sees the parts of the
columns that it finds references to and the links to the parents that it finds.
This stays so when the values of cells put new references and calls together.
-/

namespace ReportDesk.Formula

variable {env env' : Environment} {row row' : Row}

def ReadAlike (row row' : Row) : Reference → Prop
  | .column column part =>
      row.schema.contains column = true →
        row.read column part = row'.read column part
  | .relation parent _ _ =>
    Text.trim (row.code parent) = Text.trim (row'.code parent)
  | _ => True

instance decidableReadAlike (row row' : Row) :
    (reference : Reference) → Decidable (ReadAlike row row' reference)
  | .column _ _ => inferInstanceAs (Decidable (_ = true → _ = _))
  | .relation _ _ _ => inferInstanceAs (Decidable (_ = _))
  | .keyword _ | .rowKeyword _ | .comparison _ _ _ | .call _ _ =>
    inferInstanceAs (Decidable True)

/--
Two rows of one schema and with one id that agree on the references to columns
and to parents which the evaluation on the first row finds.
-/
structure AgreeWhereRead (env : Environment) (row row' : Row)
    (formula : String) : Prop where
  id : row.id = row'.id
  schema : row.schema = row'.schema
  columns : ∀ fragment ∈ Stage.columns.found env row formula,
    ReadAlike row row' fragment.reference
  parents : ∀ fragment ∈ Stage.relations.found env row formula,
    ReadAlike row row' fragment.reference

private theorem relationValue_congr {parent field : String} {part : Cell.Part}
    (htable : row.table = row'.table) (hstore : env.store = env'.store)
    (hlink : Text.trim (row.code parent) = Text.trim (row'.code parent)) :
    relationValue env row parent field part =
      relationValue env' row' parent field part := by
  unfold relationValue
  rw [htable, hstore, hlink]

/--
An evaluation that draws no identifier has the same result, value or error, on
two rows that agree where it reads, whatever else the rows hold.  It finds the
same fragments on both.
-/
theorem solveText_confined {formula : String}
    (h : AgreeWhereRead env row row' formula)
    (hnext : Stage.found env row formula (.calls .next) = []) (ids : IdSource) :
    (solveText env row formula).result =
        (solveText { env with ids } row' formula).result ∧
      ∀ stage : Stage,
        stage.found env row formula =
          stage.found { env with ids } row' formula := by
  have halike : Alike env { env with ids } row row' :=
    ⟨rfl, rfl, h.id, h.schema⟩
  have htable : row.table = row'.table := by rw [Row.table, Row.table, h.schema]
  have hvalues : ∀ stage : Stage, ∀ fragment ∈ stage.found env row formula,
      (fragmentValue env row fragment).result =
        (fragmentValue { env with ids } row' fragment).result := by
    refine halike.fragmentValue ?_ ?_ hnext
    · intro fragment hfound column part hreference
      have hread := h.columns fragment hfound
      rw [hreference, ReadAlike] at hread
      exact columnValue_congr h.schema hread
    · intro fragment hfound parent field part hreference
      have hread := h.parents fragment hfound
      rw [hreference, ReadAlike] at hread
      exact relationValue_congr htable rfl hread
  exact ⟨result_evaluate_congr halike.keywords hvalues false false,
    Stage.found_congr halike.keywords hvalues⟩

/-! ### A visit whose cells put a relation together -/

def visitRow (call country note draft : Cell) : Row :=
  ((((Row.new ⟨"Visit", [.named "call", .named "Country", .named "note"],
    0, by decide⟩).put
    "call" call).put "Country" country).put "note" note).put "draft" draft

/--
The two visits share a link, a code and a label; nothing else of them is read.
-/
theorem solveText_confined_visit :
    let italy := (Row.new ⟨"Country", [.named "name"], 0, by decide⟩).put "name"
      ⟨"IT", some "Italy"⟩
    let env : Environment :=
      ⟨.standard, ⟨2024, 3, 9⟩, (Store.empty.insert italy).2.2, ⟨0⟩⟩
    let row := visitRow (.plain "RELATION(Country") (.plain " 1")
      (.plain "label") (.plain "x")
    let row' := visitRow ⟨"RELATION(Country", some "NEXT()"⟩
      ⟨"1 ", some "Italy"⟩ ⟨"", some "label"⟩ (.plain "%note.code")
    let formula := "%call.code,name.%note.label)%draft.code"
    (solveText env row formula).result = .ok "Italy" ∧
      (solveText { env with ids := ⟨7⟩ } row' formula).result =
        .ok "Italy" := by
  intro italy env row row' formula
  have hagree : AgreeWhereRead env row row' formula :=
    ⟨rfl, rfl, by decide +kernel, by decide +kernel⟩
  have hnext : Stage.found env row formula (.calls .next) = [] := by
    decide +kernel
  have hvalue : (solveText env row formula).result = .ok "Italy" := by
    decide +kernel
  exact ⟨hvalue, (solveText_confined hagree hnext ⟨7⟩).1.symm.trans hvalue⟩

end ReportDesk.Formula
