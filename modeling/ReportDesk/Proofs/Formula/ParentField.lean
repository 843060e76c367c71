import ReportDesk.Proofs.Formula.BottomUp
import ReportDesk.Proofs.Formula.Relations
import ReportDesk.Proofs.Numeral.RoundTrip

/-!
# The field of a parent row

A relation that stands alone in a formula is left alone by the stages before
it, and its value by the stages behind it.  The formula therefore answers the
field of the row that the link names, and nothing when the link names no row.
-/

namespace ReportDesk.Formula

variable {env : Environment} {row : Row} {parent field : String}
  {part : Cell.Part}

/-! ## Links -/

/--
The row has no stored parent: its link is blank, is no row id, or names no
stored row.
-/
def Unlinked (store : Store) (row : Row) (parent : String) : Prop :=
  Text.trim (row.code parent) = "" ∨
    (∃ fault, RowId.read (Text.trim (row.code parent)) = .error fault) ∨
    ∃ id, RowId.read (Text.trim (row.code parent)) = .ok id ∧
    store.get? parent id = none

private theorem result_relationValue_of_linked {id : RowId} {parentRow : Row}
    (hread : RowId.read (Text.trim (row.code parent)) = .ok id)
    (hstored : env.store.get? parent id = some parentRow) :
    (relationValue env row parent field part).result =
      .ok (parentRow.read field part) := by
  have hlink : (Text.trim (row.code parent)).isEmpty = false := by
    rw [Bool.eq_false_iff, ne_eq, String.isEmpty_iff]
    intro hempty
    rw [hempty] at hread
    cases hread
  simp only [relationValue, hlink, Bool.false_eq_true, if_false, hread, hstored,
    Logged.result_pure]

private theorem result_relationValue_of_unlinked
    (h : Unlinked env.store row parent) :
    (relationValue env row parent field part).result = .ok "" := by
  unfold relationValue
  simp only
  split
  · rfl
  next hlink =>
    rcases h with hblank | ⟨fault, hfault⟩ | ⟨id, hread, hnone⟩
    · exact absurd (String.isEmpty_iff.mpr hblank) hlink
    · rw [hfault]
      rfl
    · simp only [hread, hnone]
      rfl

/-! ## The stages around a relation -/

private theorem result_run_relationText (hparent : Writable parent)
    (hfield : Writable field) (traced : Bool) :
    (Stage.relations.run env row traced
        (relationText parent field part)).result =
      (relationValue env row parent field part).result := by
  have hne : (relationText parent field part).toList ≠ [] := by
    simp [toList_relationText, opener]
  have hwhole (value : List Char) :
      Text.replaceAll (relationText parent field part).toList value
        (relationText parent field part).toList = value := by
    have hself : Text.replaceFrom
        (relationText parent field part).toList value 0
        ((relationText parent field part).toList ++ []) = value ++ [] :=
      Text.replaceFrom_append_self hne
    rw [List.append_nil, List.append_nil] at hself
    rw [Text.replaceAll_eq, hself]
  rw [Stage.result_run, Stage.fragments,
    findRelations_relationText hparent hfield]
  simp only [Except.bind, substitute, fragmentValue, hwhole, Logged.result_bind,
    Logged.result_pure]
  cases (relationValue env row parent field part).result with
  | error error => rfl
  | ok value =>
      change Except.ok (String.ofList value.toList) = _
      rw [String.ofList_toList]

private theorem percent_not_mem_relationText (hparent : Plain parent)
    (hfield : Plain field) (part : Cell.Part) :
    '%' ∉ (relationText parent field part).toList := by
  have hname : '%' ∉ opener relationName := by decide
  have hpart : '%' ∉ '.' :: part.name.toList := by cases part <;> decide
  simp only [toList_relationText, relationBody, List.mem_append,
    List.mem_cons, not_or]
  exact ⟨hname, ⟨hparent.not_mem (by decide), by decide,
    hfield.not_mem (by decide), by simpa using hpart⟩, by decide⟩

private theorem isBlankText_relationText (parent field : String)
    (part : Cell.Part) :
    Text.isBlankText (relationText parent field part) = false := by
  rw [Text.isBlankText, toList_relationText, List.all_eq_false]
  exact ⟨'(', by simp [opener], by decide⟩

theorem result_solveText_relationText (hparent : Writable parent)
    (hfield : Writable field) (hplainParent : Plain parent)
    (hplainField : Plain field) {value : String}
    (hvalue : (relationValue env row parent field part).result = .ok value)
    (hequal : '=' ∉ value.toList) (hopen : '(' ∉ value.toList) :
    (solveText env row (relationText parent field part)).result =
      .ok (Text.trim value) := by
  have hpercent := percent_not_mem_relationText hplainParent hplainField part
  have hbefore :=
    Stage.result_runAll_of_nil row (percentStages_of_not_mem env hpercent) false
  have hrelation :
      (Stage.relations.run env row false
        (relationText parent field part)).result =
      .ok value := (result_run_relationText hparent hfield false).trans hvalue
  have hbehind : ∀ stage ∈ Stage.comparisons :: Function.all.map .calls,
      stage.fragments env value = .ok [] := by
    rw [List.forall_mem_cons, List.forall_mem_map]
    exact ⟨comparisons_of_not_mem env hequal,
      fun f _ => calls_of_not_mem env hopen f⟩
  have hafter := Stage.result_runAll_of_nil row hbehind false
  have hall : Stage.all = [.keywords, .rowKeywords, .columns] ++
      (.relations :: .comparisons :: Function.all.map .calls) := rfl
  have hrun :
      (Stage.runAll env row false Stage.all
        (relationText parent field part)).result =
      .ok value := by
    rw [hall, Stage.runAll_append, Logged.result_bind, hbefore]
    simp only [Except.bind]
    rw [Stage.runAll, Logged.result_bind, hrelation]
    exact hafter
  rw [solveText, evaluate, isBlankText_relationText, if_neg Bool.false_ne_true,
    Logged.result_bind, hrun]
  rfl

/-! ## Rows that were just inserted -/

private theorem read_insert (s : Store) (added : Row) (field : String)
    (part : Cell.Part) :
    ∃ stored, (s.insert added).2.2.get? added.table (s.insert added).2.1 =
        some stored ∧
      stored.read field part = added.read field part := by
  cases hid : added.id with
  | some id =>
      refine ⟨added, ?_, rfl⟩
      simp only [Store.insert, hid, Store.get?_file_self]
  | none =>
      refine ⟨{ added with id := some (s.lastId + 1) }, ?_, rfl⟩
      simp only [Store.insert, hid]
      exact Store.get?_file_self _ _ { added with id := some (s.lastId + 1) }

/--
A relation alone in a formula answers the field of the stored row that the link
names, without the white space at its ends, and nothing when the link names no
stored row.  A row that was inserted is found by the text of its id.
-/
theorem solveText_relationText (env : Environment) (row : Row)
    {parent field : String} (hparent : Writable parent)
    (hfield : Writable field) (hplainParent : Plain parent)
    (hplainField : Plain field) (part : Cell.Part) :
    (∀ id parentRow, RowId.read (Text.trim (row.code parent)) = .ok id →
      env.store.get? parent id = some parentRow →
      (∀ sign ∈ ['(', '=', '!'], sign ∉ (parentRow.read field part).toList) →
      (solveText env row (relationText parent field part)).result =
        .ok (Text.trim (parentRow.read field part))) ∧
    (Unlinked env.store row parent →
      (solveText env row (relationText parent field part)).result = .ok "") ∧
    ∀ (s : Store) (added : Row), added.table = parent →
      (s.insert added).2.1 < Numeral.word64 →
      row.code parent = (s.insert added).2.1.text →
      (∀ sign ∈ ['(', '=', '!'], sign ∉ (added.read field part).toList) →
      (solveText { env with store := (s.insert added).2.2 } row
        (relationText parent field part)).result =
          .ok (Text.trim (added.read field part)) := by
  have hlinked (store : Store) {id : RowId} {parentRow : Row}
      (hread : RowId.read (Text.trim (row.code parent)) = .ok id)
      (hstored : store.get? parent id = some parentRow)
      (hclean : ∀ sign ∈ ['(', '=', '!'],
        sign ∉ (parentRow.read field part).toList) :
      (solveText { env with store } row
          (relationText parent field part)).result =
        .ok (Text.trim (parentRow.read field part)) :=
    result_solveText_relationText hparent hfield hplainParent hplainField
      (result_relationValue_of_linked hread hstored) (hclean '=' (by simp))
      (hclean '(' (by simp))
  refine ⟨fun id parentRow hread hstored hclean =>
    hlinked env.store hread hstored hclean, fun hunlinked => ?_,
    fun s added htable hid hlink hclean => ?_⟩
  · exact result_solveText_relationText hparent hfield hplainParent hplainField
      (result_relationValue_of_unlinked hunlinked) List.not_mem_nil
      List.not_mem_nil
  · obtain ⟨stored, hstored, hread⟩ := read_insert s added field part
    rw [htable] at hstored
    rw [← hread] at hclean ⊢
    refine hlinked _ ?_ hstored hclean
    rw [hlink, RowId.trim_text, RowId.read_text hid]

def countryRow : Row :=
  (Row.new ⟨"Country", [.named "name"], 0, by decide⟩).put "name"
    ⟨"IT", some " Italy "⟩

def cityRow (link : String) : Row :=
  (Row.new ⟨"City", [.named "Country"], 0, by decide⟩).putCode "Country" link

/--
The id 1 is read from its text, and also with a sign and white space; a word is
no id.
-/
theorem solveText_relationText_italy :
    let env :=
      { conditionEnvironment with store := (Store.empty.insert countryRow).2.2 }
    (solveText env (cityRow "1") "RELATION(Country,name.label)").result =
        .ok "Italy" ∧
      (solveText env (cityRow " +1") "RELATION(Country,name.label)").result =
        .ok "Italy" ∧
      (solveText env (cityRow "one") "RELATION(Country,name.label)").result =
        .ok "" := by
  have htext : relationText "Country" "name" .label =
      "RELATION(Country,name.label)" := by decide
  have hvalue : Text.trim (countryRow.read "name" .label) = "Italy" := by decide
  have hclean : ∀ sign ∈ ['(', '=', '!'],
      sign ∉ (countryRow.read "name" .label).toList := by
    rw [List.forall_mem_cons, List.forall_mem_cons, List.forall_mem_singleton]
    decide
  have hparent : Writable "Country" ∧ Plain "Country" := by decide
  have hfield : Writable "name" ∧ Plain "name" := by decide
  have hstored : (Store.empty.insert countryRow).2.2.get? "Country" 1 =
      some { countryRow with id := some 1 } := by decide
  rw [← htext, ← hvalue]
  refine ⟨?_, ?_, ?_⟩
  · exact (solveText_relationText conditionEnvironment
      (cityRow "1") hparent.1 hfield.1 hparent.2 hfield.2 .label).2.2 .empty
      countryRow rfl (by decide) (by decide) hclean
  · exact (solveText_relationText _
      (cityRow " +1") hparent.1 hfield.1 hparent.2 hfield.2 .label).1 1
      { countryRow with id := some 1 } (by decide) hstored hclean
  · exact (solveText_relationText _ (cityRow "one") hparent.1 hfield.1 hparent.2
      hfield.2 .label).2.1 (.inr (.inl ⟨_, rfl⟩))

end ReportDesk.Formula
