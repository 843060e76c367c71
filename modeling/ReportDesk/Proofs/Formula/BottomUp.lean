import Mathlib.Data.List.TakeWhile
import ReportDesk.Proofs.Formula.ReferenceStage

/-!
# Expressions are solved from the leaves upwards

A formula is solved by replacing texts.  When every call in an operand is of an
earlier function, this answers the value of the tree.
-/

namespace ReportDesk.Formula

open Text (finds)

variable {env : Environment} {row : Row}

/-! ## Stages that find nothing -/

theorem scan_eq_nil {α : Type}
    {recognise : Option Char → List Char → Text.Verdict α}
    {cs : List Char} (h : finds recognise none 0 cs = []) :
    Text.scan recognise cs = [] := by
  rw [← Text.map_scanFrom _ _ 0, List.map_eq_nil_iff] at h
  exact h

theorem scan_of_silent {α : Type}
    {recognise : Option Char → List Char → Text.Verdict α}
    {pattern cs : List Char}
    (hpass : ∀ previous cs, ¬ pattern <+: cs → recognise previous cs = .pass)
    (h : Text.Silent pattern cs []) : Text.scan recognise cs = [] := by
  have hfound := Text.finds_of_silent hpass h none
  rw [List.append_nil] at hfound
  exact scan_eq_nil hfound

theorem Scans.scan_eq_nil {α : Type}
    {recognise : Option Char → List Char → Text.Verdict α}
    {cs : List Char} (h : Scans recognise cs []) :
    Text.scan recognise cs = [] := by
  have hfound := h none none [] opens_none closes_nil
  rw [List.append_nil] at hfound
  exact Formula.scan_eq_nil hfound

private theorem keywords_eq_nil (env : Environment) {e : Expression}
    (h : e.Ordered) :
    Stage.keywords.fragments env e.text = .ok [] := by
  rw [Stage.fragments, findKeywords, Expression.toList_text,
    (scans_names h).scan_eq_nil]
  rfl

private theorem rowKeywords_eq_nil (env : Environment) {e : Expression}
    (h : e.Ordered) :
    Stage.rowKeywords.fragments env e.text = .ok [] := by
  rw [Stage.fragments, findRowKeywords, Expression.toList_text,
    (scans_names h).scan_eq_nil]
  rfl

private theorem scans_relations {fs : List Function} {e : Expression}
    (h : Remaining fs e) :
    Scans (recogniseCall relationName) e.chars [] := by
  refine Expression.scans_nothing (fun _ _ => recogniseCall_eq_pass)
    (apart_opener isName_relation) fun s hs => ?_
  cases h.ordered.of_mem_parts hs with
  | literal hplain =>
      left
      exact Scans.of_silent (fun _ _ => recogniseCall_eq_pass)
        (apart_opener isName_relation) fun rest hrest =>
          silent_opener_of_not_mem isName_relation
            (hplain.not_mem (by decide)) hrest
  | column hname => exact absurd hs (h.columns _ _)
  | @call f operands =>
      right
      refine ⟨f, operands, rfl, fun rest => ?_⟩
      exact silent_opener isName_relation (f.isName.not_mem (by decide))
        (not_suffix_relation f)

private theorem relations_eq_nil (env : Environment) {fs : List Function}
    {e : Expression} (h : Remaining fs e) :
    Stage.relations.fragments env e.text = .ok [] := by
  rw [Stage.fragments, findRelations, findClosedCalls, Expression.toList_text,
    (scans_relations h).scan_eq_nil]
  rfl

private theorem equal_not_mem_chars {e : Expression} (h : e.Ordered) :
    '=' ∉ e.chars := by
  induction h with
  | literal hplain => exact hplain.not_mem (by decide)
  | @column name part hname =>
      intro hmem
      change '=' ∈ '%' :: (name.toList ++ '.' :: part.name.toList) at hmem
      rw [List.mem_cons, List.mem_append, List.mem_cons] at hmem
      rcases hmem with hmem | hmem | hmem | hmem
      · exact absurd hmem (by decide)
      · exact hname.not_mem (by decide) hmem
      · exact absurd hmem (by decide)
      · cases part <;> exact absurd hmem (by decide)
  | @call f operands hsum hnext harity hoperands hearlier ih =>
      rw [Expression.chars_call]
      refine not_mem_callChars f (by decide) (by decide) fun operand hoperand =>
        ?_
      obtain ⟨e', he', rfl⟩ := List.mem_map.mp hoperand
      exact ih e' he'

theorem findComparisons_eq_nil {comparator : Comparator} {sign : Char}
    (hsymbol : sign ∈ comparator.symbol.toList) {text : String}
    (h : sign ∉ text.toList) :
    findComparisons comparator text = [] := by
  have hfound : finds (recogniseComparison comparator) none 0 text.toList =
      [] := by
    refine Text.finds_eq_nil
      (fun previous c rest hsuffix value length hfound => ?_) none 0
    cases hafter : comparator.symbol.toList.isPrefixOf?
        ((c :: rest).dropWhile isOperandChar) with
    | none =>
        simp only [recogniseComparison, hafter] at hfound
        cases hfound
    | some after =>
        rw [List.isPrefixOf?_eq_some_iff_append_eq] at hafter
        have hrest : sign ∈ (c :: rest).dropWhile isOperandChar := by
          rw [← hafter]
          exact List.mem_append_left _ hsymbol
        exact h (hsuffix.subset ((List.dropWhile_suffix _).subset hrest))
  rw [findComparisons, scan_eq_nil hfound]
  rfl

theorem comparisons_of_not_mem (env : Environment) {text : String}
    (h : '=' ∉ text.toList) :
    Stage.comparisons.fragments env text = .ok [] := by
  rw [Stage.fragments, findComparisons_eq_nil (by decide) h,
    findComparisons_eq_nil (by decide) h]
  rfl

private theorem comparisons_eq_nil (env : Environment) {e : Expression}
    (h : e.Ordered) :
    Stage.comparisons.fragments env e.text = .ok [] := by
  apply comparisons_of_not_mem
  rw [Expression.toList_text]
  exact equal_not_mem_chars h

theorem percentStages_of_not_mem (env : Environment) {text : String}
    (h : '%' ∉ text.toList) :
    ∀ stage ∈ [Stage.keywords, .rowKeywords, .columns],
      stage.fragments env text = .ok [] := by
  have hsilent : Text.Silent ['%'] text.toList [] := Text.silent_of_first h
  simp only [List.forall_mem_cons, List.not_mem_nil, false_implies,
    implies_true, and_true]
  refine ⟨?_, ?_, ?_⟩
  · rw [Stage.fragments, findKeywords,
      scan_of_silent (fun _ _ => recogniseName_eq_pass) hsilent]
    rfl
  · rw [Stage.fragments, findRowKeywords,
      scan_of_silent (fun _ _ => recogniseName_eq_pass) hsilent]
    rfl
  · rw [Stage.fragments, findColumns,
      scan_of_silent (fun _ _ => recogniseColumn_eq_pass) hsilent]
    rfl

theorem calls_of_not_mem (env : Environment) {text : String}
    (h : '(' ∉ text.toList)
    (f : Function) : Stage.fragments env text (.calls f) = .ok [] := by
  have hsilent : Text.Silent (opener f.name) text.toList [] :=
    silent_opener_of_not_mem f.isName h closes_nil
  rw [Stage.fragments, findCalls, findClosedCalls,
    scan_of_silent (fun _ _ => recogniseCall_eq_pass) hsilent]
  rfl

/-! ## All stages -/

private theorem value_of_isBlankText (env : Environment) (row : Row)
    {e : Expression} (h : e.Ordered) (hblank : Text.isBlankText e.text = true) :
    ∃ text, e.value env row = .ok text ∧ Text.trim text = "" := by
  rw [Text.isBlankText, Expression.toList_text, List.all_eq_true] at hblank
  cases h with
  | @literal text hplain =>
      refine ⟨text, rfl, ?_⟩
      have hnil : text.toList.dropWhile Text.isBlank = [] :=
        List.dropWhile_eq_nil_iff.mpr hblank
      rw [Text.trim, Text.trimChars, hnil]
      rfl
  | @column name part hname =>
      exact absurd (hblank '%' List.mem_cons_self) (by decide)
  | @call f operands =>
      have hmem : '(' ∈ (Expression.call f operands).chars := by
        rw [Expression.chars_call, callChars]
        simp
      exact absurd (hblank '(' hmem) (by decide)

/--
The stages answer the value of a well-formed expression, or fail when it has
none.
-/
theorem result_runAll {e : Expression} (h : e.Ordered)
    (htrue : Plain env.settings.trueValue)
    (hfalse : Plain env.settings.falseValue)
    (hplain : ∀ name part, e.Refers name part →
      Plain (columnValue row name part))
    (traced : Bool) (v : String) :
    (Stage.runAll env row traced Stage.all e.text).result = .ok v ↔
      e.value env row = .ok v := by
  obtain ⟨e', hrun, hremaining, hvalue⟩ := column_stage env h hplain traced
  have hkeywords := Stage.result_run_of_nil row (keywords_eq_nil env h) traced
  have hrowKeywords :=
    Stage.result_run_of_nil row (rowKeywords_eq_nil env h) traced
  have hrelations :=
    Stage.result_run_of_nil row (relations_eq_nil env hremaining) traced
  have hcomparisons :=
    Stage.result_run_of_nil row
      (comparisons_eq_nil env hremaining.ordered) traced
  have hcalls :=
    call_stages htrue hfalse row (List.suffix_refl Function.all) hremaining
      traced v
  rw [Stage.all, Stage.runAll_append, Logged.result_bind]
  simp only [Stage.runAll, Logged.result_bind, Logged.result_pure, hkeywords,
    hrowKeywords, hrun, hrelations, hcomparisons, Except.bind]
  rw [← hvalue]
  exact hcalls

/--
Solving the text of a well-formed expression answers its value without the
white space at the ends, and fails exactly when the expression has no value.
-/
theorem solveText_expression (env : Environment) (row : Row) {e : Expression}
    (h : e.Ordered) (htrue : Plain env.settings.trueValue)
    (hfalse : Plain env.settings.falseValue)
    (hplain : ∀ name part, e.Refers name part →
      Plain (columnValue row name part))
    (v : String) :
    (solveText env row e.text).result = .ok v ↔
      ∃ w, e.value env row = .ok w ∧ v = Text.trim w := by
  rw [solveText, evaluate]
  split
  next hblank =>
      obtain ⟨text, hvalue, htrim⟩ := value_of_isBlankText env row h hblank
      rw [hvalue, Logged.result_pure]
      constructor
      · intro hv
        cases hv
        exact ⟨text, rfl, htrim.symm⟩
      · rintro ⟨w, hw, rfl⟩
        cases hw
        rw [htrim]
  next =>
      have hrun := result_runAll h htrue hfalse hplain false
      rw [Logged.result_bind]
      constructor
      · intro hv
        cases hresult : (Stage.runAll env row false Stage.all e.text).result
          with
        | error error =>
            rw [hresult] at hv
            cases hv
        | ok w =>
            rw [hresult] at hv
            exact ⟨w, (hrun w).mp hresult, (Except.ok.inj hv).symm⟩
      · rintro ⟨w, hw, rfl⟩
        rw [(hrun w).mpr hw]
        rfl

section Leaves

variable {f : Function} {first second : Expression}
  (hfirst : first.Ordered ∧ ∀ g, ¬ first.Calls g)
  (hsecond : second.Ordered ∧ ∀ g, ¬ second.Calls g)

include hfirst hsecond

private theorem calls_of_leaves {g : Function}
    (h : (Expression.call f [first, second]).Calls g) :
    g = f := by
  obtain ⟨operands, hmem⟩ := h
  simp only [Expression.parts_call, List.flatMap_cons, List.flatMap_nil,
    List.append_nil, List.mem_cons, List.mem_append] at hmem
  rcases hmem with heq | hmem | hmem
  · cases heq
    rfl
  · exact absurd ⟨operands, hmem⟩ (hfirst.2 g)
  · exact absurd ⟨operands, hmem⟩ (hsecond.2 g)

private theorem ordered_of_leaves (hsum : f ≠ .sum) (hnext : f ≠ .next)
    (harity : f.arity.accepts 2 = true) :
    (Expression.call f [first, second]).Ordered := by
  refine .call hsum hnext harity ?_ ?_
  · simp only [List.forall_mem_cons]
    exact ⟨hfirst.1, hsecond.1, fun _ h => absurd h List.not_mem_nil⟩
  · simp only [List.forall_mem_cons]
    exact ⟨fun g h => absurd h (hfirst.2 g), fun g h => absurd h (hsecond.2 g),
      fun _ h => absurd h List.not_mem_nil⟩

end Leaves

def shownCondition : Expression :=
  let condition := .call .allTrue [.column "a" .code, .literal "yes"]
  .call .choose [condition, .call .leftTrim [.column "b" .label, .literal " 3"],
    condition]

def conditionRow : Row :=
  ((Row.new ⟨"T", [Column.named "a", Column.named "b"], 0, by decide⟩).putCode
      "a" "True").put
    "b" ⟨"1", some " hello"⟩

def conditionEnvironment : Environment :=
  ⟨.standard, ⟨2024, 1, 1⟩, .empty, ⟨0⟩⟩

theorem ordered_shownCondition : shownCondition.Ordered := by
  have hcolumn (name : String) (part : Cell.Part)
      (h : Expression.IsColumnName name) :
      (Expression.column name part).Ordered ∧ ∀ g,
        ¬ (Expression.column name part).Calls g :=
    ⟨.column h, by simp [Expression.Calls, Expression.parts]⟩
  have hliteral (text : String) (h : Plain text) :
      (Expression.literal text).Ordered ∧ ∀ g,
        ¬ (Expression.literal text).Calls g :=
    ⟨.literal h, by simp [Expression.Calls, Expression.parts]⟩
  have htested (g : Function)
      (h :
        (Expression.call .allTrue [.column "a" .code, .literal "yes"]).Calls
        g) :
      g.rank < Function.choose.rank := by
    rw [calls_of_leaves (hcolumn "a" _ (by decide))
      (hliteral "yes" (by decide)) h]
    decide
  have hshown (g : Function)
      (h :
        (Expression.call .leftTrim [.column "b" .label, .literal " 3"]).Calls
        g) :
      g.rank < Function.choose.rank := by
    rw [calls_of_leaves (hcolumn "b" _ (by decide))
      (hliteral " 3" (by decide)) h]
    decide
  have hcondition := ordered_of_leaves (hcolumn "a" .code (by decide))
    (hliteral "yes" (by decide)) (f := .allTrue) (by decide) (by decide)
    (by decide)
  have hbody := ordered_of_leaves (hcolumn "b" .label (by decide))
    (hliteral " 3" (by decide)) (f := .leftTrim) (by decide) (by decide)
    (by decide)
  refine .call (by decide) (by decide) (by decide) ?_ ?_
  · simp only [List.forall_mem_cons]
    exact ⟨hcondition, hbody, hcondition, fun _ h => absurd h List.not_mem_nil⟩
  · simp only [List.forall_mem_cons]
    exact ⟨htested, hshown, htested, fun _ h => absurd h List.not_mem_nil⟩

theorem solveText_expression_shownCondition :
    shownCondition.Ordered ∧
      (solveText conditionEnvironment conditionRow
        "IF(AND(%a.code,yes),LEFT_TRIM(%b.label, 3),AND(%a.code,yes))").result =
          .ok "he" := by
  have hplain : ∀ name part, shownCondition.Refers name part →
      Plain (columnValue conditionRow name part) := by
    intro name part hrefers
    have hcases : (name = "a" ∧ part = .code) ∨ (name = "b" ∧ part = .label) ∨
        (name = "a" ∧ part = .code) := by
      simpa [Expression.Refers, shownCondition, Expression.parts,
        Expression.partsAll] using hrefers
    rcases hcases with ⟨rfl, rfl⟩ | ⟨rfl, rfl⟩ | ⟨rfl, rfl⟩
    · decide
    · decide
    · decide
  exact ⟨ordered_shownCondition,
    (solveText_expression conditionEnvironment conditionRow
        ordered_shownCondition (by decide)
      (by decide) hplain "he").mpr ⟨" he", by rfl, by rfl⟩⟩

end ReportDesk.Formula
