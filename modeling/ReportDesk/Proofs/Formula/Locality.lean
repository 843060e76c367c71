import ReportDesk.Formula.Evaluation
import ReportDesk.Proofs.Result

/-!
# What an evaluation reads

An evaluation reads the row and the source of identifiers only through the
fragments that its stages find.  Two evaluations of one formula in which the
fragments found have equal values have the same result.
-/

namespace ReportDesk.Formula

theorem Function.ofName?_name (f : Function) : ofName? f.name = some f := by
  cases f <;> decide

/-! ## One stage -/

theorem Stage.result_run (env : Environment) (row : Row) (traced : Bool)
    (stage : Stage) (text : String) :
    (stage.run env row traced text).result =
      (stage.fragments env text).bind fun found =>
        (substitute (fragmentValue env row) found text.toList).result.map
          String.ofList := by
  simp only [Stage.run, Logged.result_bind, Logged.result_ofExcept]
  cases stage.fragments env text with
  | error error => rfl
  | ok found =>
      simp only [Except.bind]
      cases (substitute (fragmentValue env row) found text.toList).result with
      | error error => rfl
      | ok cs =>
          cases stage.shownAs found with
          | none => rfl
          | some name => rfl

theorem Stage.result_run_of_nil (row : Row) {env : Environment} {stage : Stage}
    {text : String} (h : stage.fragments env text = .ok []) (traced : Bool) :
    (stage.run env row traced text).result = .ok text := by
  rw [Stage.result_run, h]
  change (Except.ok (String.ofList text.toList) : Except Error String) =
      .ok text
  rw [String.ofList_toList]

theorem Stage.result_runAll_of_nil (row : Row) {env : Environment}
    {text : String} {stages : List Stage}
    (h : ∀ stage ∈ stages, stage.fragments env text = .ok []) (traced : Bool) :
    (runAll env row traced stages text).result = .ok text := by
  induction stages with
  | nil => rfl
  | cons stage rest ih =>
      rw [List.forall_mem_cons] at h
      rw [runAll, Logged.result_bind, result_run_of_nil row h.1]
      exact ih h.2

private theorem substitute_congr {value value' : Fragment → Logged Error String}
    {fs : List Fragment} (h : ∀ f ∈ fs, (value f).result = (value' f).result)
    (cs : List Char) :
    (substitute value fs cs).result = (substitute value' fs cs).result := by
  induction fs generalizing cs with
  | nil => rfl
  | cons f fs ih =>
      rw [List.forall_mem_cons] at h
      rw [substitute, substitute, Logged.result_bind, Logged.result_bind, h.1]
      cases (value' f).result with
      | error error => rfl
      | ok v => exact ih h.2 _

/-! ## All stages -/

def Stage.earlier (stage : Stage) : List Stage :=
  all.takeWhile (· != stage)

/--
The fragments that a stage finds in an evaluation, if the evaluation gets so
far.
-/
def Stage.found (env : Environment) (row : Row) (formula : String)
    (stage : Stage) : List Fragment :=
  if Text.isBlankText formula then []
  else
    match (runAll env row false stage.earlier formula).result.bind
      (stage.fragments env) with
    | .ok fragments => fragments
    | .error _ => []

private theorem Stage.earlier_eq {stage : Stage} {earlier later : List Stage}
    (h : all = earlier ++ stage :: later) : stage.earlier = earlier := by
  have hnodup : (earlier ++ stage :: later).Nodup := by
    rw [← h]
    decide
  have hfresh : stage ∉ earlier := by
    intro hmem
    exact (List.nodup_append.mp hnodup).2.2 stage hmem stage
      List.mem_cons_self rfl
  rw [Stage.earlier, h, List.takeWhile_append_of_pos]
  · simp
  · intro other hmem
    rw [bne_iff_ne]
    rintro rfl
    exact hfresh hmem

variable {env env' : Environment} {row row' : Row}

private theorem Stage.fragments_congr (h : env.keywords = env'.keywords)
    (stage : Stage) (text : String) :
    stage.fragments env text = stage.fragments env' text := by
  cases stage with
  | keywords => rw [fragments, fragments, h]
  | _ => rfl

private theorem Stage.found_eq {stage : Stage} {formula text : String}
    {fragments : List Fragment} {earlier later : List Stage}
    (hblank : Text.isBlankText formula = false)
    (hall : all = earlier ++ stage :: later)
    (htext : (runAll env row false earlier formula).result = .ok text)
    (hfragments : stage.fragments env text = .ok fragments) :
    stage.found env row formula = fragments := by
  rw [found, hblank, Stage.earlier_eq hall, htext]
  simp only [Bool.false_eq_true, if_false, Except.bind, hfragments]

private theorem Stage.exists_fragments_of_found {stage : Stage}
    {formula : String} {fragment : Fragment}
    (h : fragment ∈ stage.found env row formula) :
    ∃ text fragments,
      stage.fragments env text = .ok fragments ∧ fragment ∈ fragments := by
  unfold found at h
  split at h
  · exact absurd h List.not_mem_nil
  · cases htext : (runAll env row false stage.earlier formula).result with
    | error error =>
        rw [htext] at h
        exact absurd h List.not_mem_nil
    | ok text =>
        cases hfragments : stage.fragments env text with
        | error error =>
            simp only [htext, Except.bind, hfragments] at h
            exact absurd h List.not_mem_nil
        | ok fragments =>
            simp only [htext, Except.bind, hfragments] at h
            exact ⟨text, fragments, hfragments, h⟩

theorem result_runAll_congr {formula : String}
    (hkeywords : env.keywords = env'.keywords)
    (hblank : Text.isBlankText formula = false)
    (h : ∀ stage : Stage, ∀ fragment ∈ stage.found env row formula,
      (fragmentValue env row fragment).result =
        (fragmentValue env' row' fragment).result)
    (traced traced' : Bool) {earlier next later : List Stage} {text : String}
    (hall : Stage.all = earlier ++ (next ++ later))
    (htext : (Stage.runAll env row false earlier formula).result = .ok text) :
    (Stage.runAll env row traced next text).result =
      (Stage.runAll env' row' traced' next text).result := by
  -- the induction walks the next stages, `text` being what the earlier ones
  -- left
  induction next generalizing earlier text with
  | nil => rfl
  | cons stage next ih =>
      have hrun : (stage.run env row traced text).result =
          (stage.run env' row' traced' text).result := by
        rw [Stage.result_run, Stage.result_run,
          ← Stage.fragments_congr hkeywords]
        cases hfound : stage.fragments env text with
        | error error => rfl
        | ok found =>
            have hvalues := h stage
            rw [Stage.found_eq hblank hall htext hfound] at hvalues
            simp only [Except.bind]
            rw [substitute_congr hvalues]
      rw [Stage.runAll, Stage.runAll, Logged.result_bind,
        Logged.result_bind, ← hrun]
      cases hafter : (stage.run env row traced text).result with
      | error error => rfl
      | ok after =>
          have hsame : (stage.run env row false text).result = .ok after := by
            rw [← hafter, Stage.result_run, Stage.result_run]
          have htext' :
              (Stage.runAll env row false (earlier ++ [stage]) formula).result =
              .ok after := by
            rw [Stage.runAll_append, Logged.result_bind, htext]
            change (Stage.runAll env row false [stage] text).result = .ok after
            rw [Stage.runAll, Logged.result_bind, hsame]
            rfl
          have hall' : Stage.all = earlier ++ [stage] ++ (next ++ later) := by
            rw [hall, List.append_assoc, List.singleton_append,
              List.cons_append]
          exact ih hall' htext'

theorem result_evaluate_congr {formula : String}
    (hkeywords : env.keywords = env'.keywords)
    (h : ∀ stage : Stage, ∀ fragment ∈ stage.found env row formula,
      (fragmentValue env row fragment).result =
        (fragmentValue env' row' fragment).result)
    (traced traced' : Bool) :
    (evaluate env row traced formula).result =
      (evaluate env' row' traced' formula).result := by
  unfold evaluate
  cases hblank : Text.isBlankText formula with
  | true => rfl
  | false =>
      have hall : Stage.all = [] ++ (Stage.all ++ []) := by simp
      have hrun :=
        result_runAll_congr hkeywords hblank h traced traced' hall rfl
      simp only [Bool.false_eq_true, if_false, Logged.result_bind, hrun]

theorem Stage.found_congr {formula : String}
    (hkeywords : env.keywords = env'.keywords)
    (h : ∀ stage : Stage, ∀ fragment ∈ stage.found env row formula,
      (fragmentValue env row fragment).result =
        (fragmentValue env' row' fragment).result)
    (stage : Stage) :
    stage.found env row formula = stage.found env' row' formula := by
  unfold found
  cases hblank : Text.isBlankText formula with
  | true => rfl
  | false =>
      have hall : all =
          [] ++ (stage.earlier ++ all.dropWhile (· != stage)) := by
        rw [List.nil_append, earlier, List.takeWhile_append_dropWhile]
      have hfragments : stage.fragments env = stage.fragments env' :=
        funext (fragments_congr hkeywords stage)
      rw [result_runAll_congr hkeywords hblank h false false hall rfl,
        hfragments]

theorem result_solveColumn (env : Environment) (row : Row)
    (column header : String) :
    (solveColumn env row column header).result =
      (evaluate env row (env.settings.traceColumn == some column)
        (row.schema.formula column header)).result := by
  simp only [solveColumn, Logged.result_bind]
  cases (evaluate env row (env.settings.traceColumn == some column)
    (row.schema.formula column header)).result with
  | error error => rfl
  | ok value => rfl

/-! ## Fragments that two rows give one value -/

/--
The same settings, day, schema and row id; stores, identifiers and cells may
differ.
-/
structure Alike (env env' : Environment) (row row' : Row) : Prop where
  settings : env.settings = env'.settings
  today : env.today = env'.today
  id : row.id = row'.id
  schema : row.schema = row'.schema

theorem Environment.settings_child (env : Environment) (index : Nat) :
    (env.child index).settings = env.settings := by
  rw [child]

theorem Environment.today_child (env : Environment) (index : Nat) :
    (env.child index).today = env.today := by
  rw [child]

theorem Alike.keywords (h : Alike env env' row row') :
    env.keywords = env'.keywords := by
  rw [Environment.keywords, Environment.keywords, h.settings, h.today]

theorem columnValue_congr {column : String} {part : Cell.Part}
    (hschema : row.schema = row'.schema)
    (hread : row.schema.contains column = true →
      row.read column part = row'.read column part) :
    columnValue row column part = columnValue row' column part := by
  unfold columnValue
  rw [← hschema]
  split
  next hcontains => exact hread hcontains
  next => rfl

private theorem Function.value_fresh {f : Function} (hnext : f ≠ .next)
    (settings : Settings) (fresh fresh' text : String)
    (operands : List String) :
    f.value settings fresh text operands =
      f.value settings fresh' text operands := by
  unfold value
  split
  all_goals first
    | rfl
    | exact absurd rfl hnext

private theorem callByName_fresh {f : Function} (hnext : f ≠ .next)
    (settings : Settings) (fresh fresh' text : String)
    (operands : List String) :
    callByName settings fresh text f.name operands =
      callByName settings fresh' text f.name operands := by
  rw [callByName, callByName, Function.ofName?_name]
  change f.call settings fresh text operands =
    f.call settings fresh' text operands
  unfold Function.call
  rw [Function.value_fresh hnext settings fresh fresh']

private theorem exists_call_of_mem_mapM {name text : String}
    {make : ClosedCall → Except Error Fragment} {fragments : List Fragment}
    (h : (do (← findClosedCalls name text).mapM make) = Except.ok fragments)
    {fragment : Fragment} (hmem : fragment ∈ fragments) :
    ∃ call, make call = .ok fragment := by
  obtain ⟨calls, -, hmade⟩ := bind_eq_ok_iff.mp h
  obtain ⟨call, -, hcall⟩ :=
    exists_of_mem_forall₂ (mapM_eq_ok_iff.mp hmade) hmem
  exact ⟨call, hcall⟩

private theorem reference_of_mem_findCalls {name text : String}
    {fragments : List Fragment} {fragment : Fragment}
    (h : findCalls name text = .ok fragments) (hmem : fragment ∈ fragments) :
    ∃ operands, fragment.reference = .call name operands := by
  obtain ⟨call, hcall⟩ := exists_call_of_mem_mapM h hmem
  rw [callFragment] at hcall
  split at hcall
  · cases hcall
  · cases hcall
    exact ⟨operandsOf call.body, rfl⟩

private theorem eq_relation_of_relationOf? {body : List Char}
    {reference : Reference} (h : relationOf? body = some reference) :
    ∃ parent field part, reference = .relation parent field part := by
  unfold relationOf? at h
  split at h
  · cases h
  · split at h
    · simp only at h
      split at h
      · cases h
      · exact ⟨_, _, _, (Option.some.inj h).symm⟩
    · cases h

private theorem reference_of_mem_findRelations {text : String}
    {fragments : List Fragment} {fragment : Fragment}
    (h : findRelations text = .ok fragments) (hmem : fragment ∈ fragments) :
    ∃ parent field part, fragment.reference = .relation parent field part := by
  obtain ⟨call, hcall⟩ := exists_call_of_mem_mapM h hmem
  rw [relationFragment] at hcall
  split at hcall
  next reference hreference =>
    cases hcall
    exact eq_relation_of_relationOf? hreference
  next => cases hcall

/--
In an evaluation that draws no identifier, only the columns and the relations
that it refers to tell alike rows apart.
-/
theorem Alike.fragmentValue (h : Alike env env' row row') {formula : String}
    (hcolumns : ∀ fragment ∈ Stage.columns.found env row formula, ∀ column part,
      fragment.reference = .column column part →
        columnValue row column part = columnValue row' column part)
    (hrelations : ∀ fragment ∈ Stage.relations.found env row formula,
      ∀ parent field part,
      fragment.reference = .relation parent field part →
        relationValue env row parent field part =
          relationValue env' row' parent field part)
    (hnext : Stage.found env row formula (.calls .next) = []) :
    ∀ stage : Stage, ∀ fragment ∈ stage.found env row formula,
      (fragmentValue env row fragment).result =
        (fragmentValue env' row' fragment).result := by
  intro stage fragment hfound
  obtain ⟨text, fragments, hfragments, hmem⟩ :=
    Stage.exists_fragments_of_found hfound
  cases stage with
  | keywords =>
      cases hfragments
      obtain ⟨o, -, rfl⟩ := List.mem_map.mp hmem
      rw [Formula.fragmentValue, Formula.fragmentValue]
      simp only [Fragment.ofOccurrence, h.keywords]
  | rowKeywords =>
      cases hfragments
      obtain ⟨o, -, rfl⟩ := List.mem_map.mp hmem
      rw [Formula.fragmentValue, Formula.fragmentValue]
      cases hkeyword : o.value with
      | rowId =>
          simp only [Fragment.ofOccurrence, hkeyword, rowKeywordValue, h.id]
      | tableName =>
          simp only [Fragment.ofOccurrence, hkeyword, rowKeywordValue,
            Row.table, h.schema]
  | columns =>
      cases hfragments
      obtain ⟨o, -, rfl⟩ := List.mem_map.mp hmem
      have hvalue := hcolumns _ hfound o.value.1 o.value.2 rfl
      rw [Formula.fragmentValue, Formula.fragmentValue]
      simp only [Fragment.ofOccurrence, hvalue]
  | relations =>
      obtain ⟨parent, field, part, hreference⟩ :=
        reference_of_mem_findRelations hfragments hmem
      have hvalue := hrelations fragment hfound parent field part hreference
      rw [Formula.fragmentValue, Formula.fragmentValue, hreference]
      simp only [hvalue]
  | comparisons =>
      cases hfragments
      rcases List.mem_append.mp hmem with hmem | hmem
      · obtain ⟨o, -, rfl⟩ := List.mem_map.mp hmem
        rw [Formula.fragmentValue, Formula.fragmentValue]
        simp only [Fragment.ofOccurrence, h.settings]
      · obtain ⟨o, -, rfl⟩ := List.mem_map.mp hmem
        rw [Formula.fragmentValue, Formula.fragmentValue]
        simp only [Fragment.ofOccurrence, h.settings]
  | calls f =>
      obtain ⟨operands, hreference⟩ :=
        reference_of_mem_findCalls hfragments hmem
      have hf : f ≠ .next := by
        rintro rfl
        rw [hnext] at hfound
        exact absurd hfound List.not_mem_nil
      rw [Formula.fragmentValue, Formula.fragmentValue, hreference, h.settings]
      change (callByName env'.settings env.ids.uuid fragment.text f.name
        operands).result = _
      rw [callByName_fresh hf _ env.ids.uuid env'.ids.uuid]

end ReportDesk.Formula
