import ReportDesk.Proofs.Formula.BottomUp
import ReportDesk.Proofs.Formula.Equation
import ReportDesk.Proofs.Text.Trim

/-!
# A conjunction of equations

The comparisons of a formula are found each between its own operands, and
replaced by text.  A conjunction answers for its equations as long as each of
them is read alone.
-/

namespace ReportDesk.Formula

open Text (Verdict Silent finds replaceFrom)

/-! ## Finding the equations of a conjunction -/

private theorem isOperandChar_of_plain {text : String} (h : Plain text) :
    ∀ c ∈ text.toList, isOperandChar c = true := by
  intro c hc
  have hsign := h c hc
  simp only [isSign, Bool.or_eq_false_iff] at hsign
  obtain ⟨⟨⟨⟨⟨-, hopen⟩, hclose⟩, hcomma⟩, hequal⟩, hbang⟩ := hsign
  simp [isOperandChar, bne, hopen, hclose, hcomma, hequal, hbang]

private theorem takeWhile_operand {text : String} (h : Plain text)
    {rest : List Char} (hrest : rest.takeWhile isOperandChar = []) :
    (text.toList ++ rest).takeWhile isOperandChar = text.toList := by
  rw [List.takeWhile_append_of_pos (isOperandChar_of_plain h), hrest,
    List.append_nil]

private theorem takeWhile_of_closes {rest : List Char} (h : Closes rest) :
    rest.takeWhile isOperandChar = [] := by
  cases rest with
  | nil => rfl
  | cons c rest =>
      rcases h c rfl with rfl | rfl
      · rfl
      · rfl

private theorem finds_comparison_separator {c : Char}
    (hc : c = ',' ∨ c = ')' ∨ c = '(') (comparator : Comparator)
    (previous : Option Char) (rest : List Char) :
    finds (recogniseComparison comparator) previous 0 (c :: rest) =
      finds (recogniseComparison comparator) (some c) 0 rest := by
  have hskip : recogniseComparison comparator previous (c :: rest) =
      .skip 0 := by
    rcases hc with rfl | rfl | rfl <;> cases comparator <;> rfl
  rw [finds, hskip]

theorem Equation.scans {e : Equation} (h : e.Plain) :
    Scans (recogniseComparison .equal) e.text.toList
      [((e.lhs, e.rhs), e.text.toList)] := by
  intro previous next rest _ hrest
  have hlhs : (e.text.toList ++ rest).takeWhile isOperandChar =
      e.lhs.toList := by
    rw [Equation.toList_text, List.append_assoc]
    exact takeWhile_operand h.lhs rfl
  have hafter : (e.text.toList ++ rest).dropWhile isOperandChar =
      '=' :: '=' :: (e.rhs.toList ++ rest) := by
    rw [Equation.toList_text, List.append_assoc,
      List.dropWhile_append_of_pos (isOperandChar_of_plain h.lhs)]
    rfl
  have hrhs : (e.rhs.toList ++ rest).takeWhile isOperandChar = e.rhs.toList :=
    takeWhile_operand h.rhs (takeWhile_of_closes hrest)
  have hfound : recogniseComparison .equal previous (e.text.toList ++ rest) =
      .found (e.lhs, e.rhs) e.text.toList.length := by
    have hsymbol :
        "==".toList.isPrefixOf? ('=' :: '=' :: (e.rhs.toList ++ rest)) =
        some (e.rhs.toList ++ rest) := rfl
    simp only [recogniseComparison, hlhs, hafter, Comparator.symbol, hsymbol,
      hrhs, String.ofList_toList]
    congr 1
    simp [Equation.toList_text]
    omega
  rw [Text.finds_found (List.ne_nil_of_mem (Equation.equal_mem e)) hfound,
    Text.finds_congr_before (fun _ _ _ => rfl) _ next]
  rfl

def Equation.key (e : Equation) : Reference × String :=
  (.comparison e.lhs .equal e.rhs, e.text)

def conjunction (es : List Equation) : String :=
  callText .allTrue (es.map Equation.text)

theorem toList_conjunction (es : List Equation) :
    (conjunction es).toList =
      callChars Function.allTrue.name (es.map fun e => e.text.toList) := by
  rw [conjunction, toList_callText, List.map_map]
  rfl

def leftOver (settings : Settings) (done es : List Equation) : List String :=
  es.map fun e => String.ofList (e.rewritten settings done)

theorem toList_leftOver (settings : Settings) (done es : List Equation) :
    (leftOver settings done es).map String.toList = es.map fun e =>
      e.rewritten settings done := by
  rw [leftOver, List.map_map]
  exact List.map_congr_left fun _ _ => String.toList_ofList

section Stages

variable {env : Environment} {row : Row} {es : List Equation}
  (hplain : ∀ e ∈ es, e.Plain)

include hplain

private theorem finds_equations :
    finds (recogniseComparison .equal) none 0 (conjunction es).toList =
      es.map fun e => ((e.lhs, e.rhs), e.text.toList) := by
  have hname (rest : List Char) :
      finds (recogniseComparison .equal) none 0
        (Function.allTrue.name.toList ++ '(' :: rest) =
        finds (recogniseComparison .equal) (some '(') 0 rest := by
    have hskip : recogniseComparison .equal none
        ('A' :: 'N' :: 'D' :: '(' :: rest) = .skip 3 :=
      rfl
    change finds _ none 0 ('A' :: 'N' :: 'D' :: '(' :: rest) = _
    rw [finds, hskip]
    exact (Text.finds_skip ['N', 'D'] ('(' :: rest) (some 'A')).trans
      (finds_comparison_separator (.inr (.inr rfl)) _ _ _)
  have hbetween (c : Char) (hc : c = ',' ∨ c = ')') :=
    finds_comparison_separator (hc.imp_right .inl) .equal
  have hbody :=
    finds_joinWith hbetween (fun e he => Equation.scans (hplain e he))
    opens_parenthesis []
  rw [toList_conjunction, callChars, List.append_assoc, List.singleton_append,
    hname, hbody]
  rw [finds, List.append_nil, ← List.map_eq_flatMap]

private theorem not_mem_conjunction {sign : Char} (hsign : isSign sign = true)
    (hbetween : sign ∉ ['(', ',', ')']) (hne : sign ≠ '=') :
    sign ∉ (conjunction es).toList := by
  rw [toList_conjunction]
  refine not_mem_callChars .allTrue hsign hbetween fun operand hoperand => ?_
  obtain ⟨e, he, rfl⟩ := List.mem_map.mp hoperand
  exact (hplain e he).not_mem hsign hne

private theorem exists_comparisons (env : Environment) :
    ∃ fragments, Stage.comparisons.fragments env (conjunction es) =
        .ok fragments ∧
      fragments.map Fragment.key = es.map Equation.key := by
  have hsign : '!' ∉ (conjunction es).toList :=
    not_mem_conjunction hplain (by decide) (by decide) (by decide)
  have hdifferent : findComparisons .notEqual (conjunction es) = [] :=
    findComparisons_eq_nil (by decide) hsign
  refine ⟨findComparisons .equal (conjunction es), ?_, ?_⟩
  · rw [Stage.fragments, hdifferent, List.append_nil]
  · have hfound := congrArg
      (List.map fun found : (String × String) × List Char =>
        (Reference.comparison found.1.1 .equal found.1.2,
          String.ofList found.2))
      (finds_equations hplain)
    rw [← Text.map_scanFrom _ _ 0, List.map_map, List.map_map] at hfound
    rw [findComparisons, List.map_map]
    refine Eq.trans hfound (List.map_congr_left fun e he => ?_)
    simp [Equation.key]

/-! ## The stages -/

section Replacing

variable (htrue : Plain env.settings.trueValue)
  (hfalse : Plain env.settings.falseValue)

include htrue hfalse

private theorem substitute_equations {fragments : List Fragment}
    {done later : List Equation} (hdone : ∀ f ∈ done, f.Plain)
    (hlater : ∀ f ∈ later, f.Plain)
    (hkeys : fragments.map Fragment.key = later.map Equation.key) :
    (substitute (fragmentValue env row) fragments
        (callText .allTrue (leftOver env.settings done es)).toList).result =
      .ok
        (callText .allTrue
          (leftOver env.settings (done ++ later) es)).toList := by
  induction later generalizing fragments done with
  | nil =>
      rw [List.map_nil, List.map_eq_nil_iff] at hkeys
      rw [hkeys, List.append_nil]
      rfl
  | cons f later ih =>
      cases fragments with
      | nil => cases hkeys
      | cons fragment fragments =>
          rw [List.forall_mem_cons] at hlater
          obtain ⟨hkey, hkeys⟩ := List.cons_eq_cons.mp hkeys
          obtain ⟨hreference, htext⟩ := Prod.mk.inj hkey
          have hvalue : (fragmentValue env row fragment).result =
              .ok (f.truthText env.settings) := by
            rw [fragmentValue, hreference]
            rfl
          have hturn : Text.replaceAll fragment.text.toList
              (f.truthText env.settings).toList
              (callText .allTrue (leftOver env.settings done es)).toList =
                (callText .allTrue
                  (leftOver env.settings (done ++ [f]) es)).toList := by
            have hrewrites :=
              Rewrites.call hlater.1.apart (hlater.1.silent_name .allTrue)
              (fun e he => Equation.rewrites_rewritten htrue hfalse
                (hplain e he) hlater.1 hdone)
              [] closes_nil
            rw [List.append_nil, replaceFrom, List.append_nil] at hrewrites
            rw [Text.replaceAll_eq, toList_callText, toList_callText,
              toList_leftOver, toList_leftOver]
            change replaceFrom fragment.key.2.toList _ 0 _ = _
            rw [hkey]
            exact hrewrites
          have hdone' : ∀ g ∈ done ++ [f], g.Plain := by
            intro g hg
            rcases List.mem_append.mp hg with hg | hg
            · exact hdone g hg
            · exact (List.mem_singleton.mp hg) ▸ hlater.1
          have hrest := ih hdone' hlater.2 hkeys
          rw [substitute, Logged.result_bind, hvalue, List.append_cons, ← hrest]
          change (substitute _ _ (Text.replaceAll _ _ _)).result = _
          rw [hturn]

theorem comparison_stage (traced : Bool) :
    (Stage.comparisons.run env row traced (conjunction es)).result =
      .ok (callText .allTrue (leftOver env.settings es es)) := by
  obtain ⟨fragments, hfragments, hkeys⟩ := exists_comparisons hplain env
  have hstart : callText .allTrue (leftOver env.settings [] es) =
      conjunction es := by
    rw [← String.toList_inj, toList_callText, toList_leftOver,
      toList_conjunction]
    rfl
  have hsubstitute : (substitute (fragmentValue env row) fragments
      (callText .allTrue (leftOver env.settings [] es)).toList).result = _ :=
    substitute_equations hplain htrue hfalse
      (fun _ h => absurd h List.not_mem_nil) hplain hkeys
  rw [hstart, List.nil_append] at hsubstitute
  rw [Stage.result_run, hfragments]
  change (substitute (fragmentValue env row) fragments _).result.map
    String.ofList = _
  rw [hsubstitute]
  change Except.ok (String.ofList _) = _
  rw [String.ofList_toList]

private theorem plain_leftOver :
    ∀ text ∈ leftOver env.settings es es, Plain text := by
  intro text hmem
  obtain ⟨e, he, rfl⟩ := List.mem_map.mp hmem
  obtain ⟨f, hreader⟩ := Equation.exists_reader he
  intro c hc
  rw [String.toList_ofList] at hc
  exact Equation.isSign_rewritten htrue hfalse (hplain e he) hplain hreader c hc

private theorem result_calls (hlength : 2 ≤ es.length) (traced : Bool) :
    (Stage.runAll env row traced (Function.all.map .calls)
        (callText .allTrue (leftOver env.settings es es))).result =
      .ok
        (env.settings.truthText
          ((leftOver env.settings es es).all env.settings.isTrue)) := by
  have hcount : 2 ≤ (leftOver env.settings es es).length := by
    rwa [leftOver, List.length_map]
  have hplain := plain_leftOver hplain htrue hfalse
  generalize leftOver env.settings es es = texts at hcount hplain ⊢
  have haccepts : Function.allTrue.arity.accepts texts.length = true := by
    simpa [Function.arity, Arity.accepts] using hcount
  have hcalls : ∀ e ∈ texts.map Expression.literal, ∀ g, ¬ e.Calls g := by
    intro e he g hg
    obtain ⟨text, -, rfl⟩ := List.mem_map.mp he
    simp [Expression.Calls, Expression.parts] at hg
  have hordered : (Expression.call .allTrue (texts.map .literal)).Ordered := by
    refine .call (by decide) (by decide) (by rwa [List.length_map])
      (fun e he => ?_)
      fun e he g hg => absurd hg (hcalls e he g)
    obtain ⟨text, htext, rfl⟩ := List.mem_map.mp he
    exact .literal (hplain text htext)
  have hremaining :
      Remaining Function.all (.call .allTrue (texts.map .literal)) := by
    refine ⟨hordered, fun name part hrefers => ?_,
      fun g _ => by cases g <;> decide⟩
    rw [Expression.Refers, Expression.parts_call, List.mem_cons,
      List.mem_flatMap] at hrefers
    rcases hrefers with heq | ⟨e, he, hmem⟩
    · cases heq
    · obtain ⟨text, -, rfl⟩ := List.mem_map.mp he
      cases List.mem_singleton.mp hmem
  have hstages :=
    call_stages htrue hfalse row (List.suffix_refl _) hremaining traced
    (env.settings.truthText (texts.all env.settings.isTrue))
  have htext : (Expression.call .allTrue (texts.map .literal)).text =
      callText .allTrue texts := by
    rw [Expression.text, Expression.chars_call,
      Expression.chars_literals, callText]
  rw [htext] at hstages
  rw [hstages, Expression.value, Expression.valueAll_literals]
  change (callByName _ _ _ _ _).result = _
  rw [callByName, Function.ofName?_name]
  change (Function.call _ _ _ _ _).result = _
  rw [Function.call, if_pos haccepts]
  rfl

end Replacing

/-! ### The stages that find nothing -/

private theorem scan_relations_conjunction :
    Text.scan (recogniseCall relationName) (conjunction es).toList = [] := by
  have hpass (previous : Option Char) (cs : List Char)
      (h : ¬ opener relationName <+: cs) :
      recogniseCall relationName previous cs = .pass := recogniseCall_eq_pass h
  have hname (rest : List Char) :
      Silent (opener relationName)
        (Function.allTrue.name.toList ++ ['(']) rest :=
    silent_opener isName_relation (Function.allTrue.isName.not_mem (by decide))
      (not_suffix_relation .allTrue)
  have hcall := Scans.call hpass (apart_opener isName_relation) hname
    fun e he => Scans.of_silent hpass (apart_opener isName_relation)
      fun rest hrest => silent_opener_of_not_mem isName_relation
        ((hplain e he).not_mem (by decide) (by decide)) hrest
  rw [List.flatMap_eq_nil_iff.mpr fun _ _ => rfl] at hcall
  rw [toList_conjunction]
  exact hcall.scan_eq_nil

private theorem fragments_before_comparisons (env : Environment) :
    ∀ stage ∈ [Stage.keywords, .rowKeywords, .columns, .relations],
      stage.fragments env (conjunction es) = .ok [] := by
  have hpercent : '%' ∉ (conjunction es).toList :=
    not_mem_conjunction hplain (by decide) (by decide) (by decide)
  intro stage hstage
  obtain hpercentStage | rfl : stage ∈
    [Stage.keywords, .rowKeywords, .columns] ∨
      stage = .relations := by simpa [or_assoc] using hstage
  · exact percentStages_of_not_mem env hpercent stage hpercentStage
  · rw [Stage.fragments, findRelations, findClosedCalls,
      scan_relations_conjunction hplain]
    rfl

theorem result_solveText_conjunction (hlength : 2 ≤ es.length)
    (htrue : Plain env.settings.trueValue)
    (hfalse : Plain env.settings.falseValue) :
    (solveText env row (conjunction es)).result =
      .ok (Text.trim (env.settings.truthText
        ((leftOver env.settings es es).all env.settings.isTrue))) := by
  have hblank : ¬ Text.isBlankText (conjunction es) = true := by
    have hmem : '(' ∈ (conjunction es).toList := by
      rw [toList_conjunction, callChars]
      simp
    intro hall
    exact absurd (List.all_eq_true.mp hall '(' hmem) (by decide)
  have hbefore (stage : Stage)
      (hstage : stage ∈ [Stage.keywords, .rowKeywords, .columns, .relations]) :=
    Stage.result_run_of_nil row
      (fragments_before_comparisons hplain env stage hstage) false
  have hrun : (Stage.runAll env row false Stage.all (conjunction es)).result =
      .ok
        (env.settings.truthText
          ((leftOver env.settings es es).all env.settings.isTrue)) := by
    rw [Stage.all, Stage.runAll_append, Logged.result_bind]
    simp only [Stage.runAll, Logged.result_bind, Logged.result_pure,
      Except.bind, hbefore .keywords (by simp), hbefore .rowKeywords (by simp),
      hbefore .columns (by simp), hbefore .relations (by simp),
      comparison_stage hplain htrue hfalse]
    exact result_calls hplain htrue hfalse hlength false
  rw [solveText, evaluate, if_neg hblank, Logged.result_bind, hrun]
  rfl

end Stages

/-! ## The answer under the standard settings -/

private theorem Settings.isTrue_standard (text : String) :
    Settings.standard.isTrue text = true ↔
      (Text.trimChars text.toList).map Char.toLower = "yes".toList ∨
        (Text.trimChars text.toList).map Char.toLower = "true".toList := by
  have hyes : "yes".toList.map Char.toLower = "yes".toList := by decide
  have htrue : "true".toList.map Char.toLower = "true".toList := by decide
  simp only [Settings.isTrue, Settings.standard, List.any_cons, List.any_nil,
    Bool.or_false, Bool.or_eq_true, Text.equalIgnoringCase, beq_iff_eq, hyes,
    htrue, Text.toList_trim]
  exact or_congr eq_comm eq_comm

private theorem Settings.isTrue_around {before after : List Char}
    {value : Bool} :
    Settings.standard.isTrue (String.ofList (before ++
        (Settings.standard.truthText value).toList ++ after)) = true ↔
      value = true ∧ (∀ c ∈ before, Text.isBlank c = true) ∧
        ∀ c ∈ after, Text.isBlank c = true := by
  have hall : ((Settings.standard.truthText value).toList.all fun c =>
      !Text.isBlank c) = true := by
    cases value <;> decide
  have hword : ∀ c ∈ (Settings.standard.truthText value).toList,
      Text.isBlank c = false := by
    simpa using hall
  have hne : (Settings.standard.truthText value).toList ≠ [] := by
    cases value <;> decide
  have hbefore : before.dropWhile Text.isBlank = [] ↔
      ∀ c ∈ before, Text.isBlank c = true :=
    List.dropWhile_eq_nil_iff
  have hafter : Text.trimEndChars after = [] ↔
      ∀ c ∈ after, Text.isBlank c = true := by
    rw [Text.trimEndChars, List.reverse_eq_nil_iff, List.dropWhile_eq_nil_iff]
    simp only [List.mem_reverse]
  rw [isTrue_standard, String.toList_ofList, Text.trimChars_around hne hword,
    ← hbefore, ← hafter]
  generalize before.dropWhile Text.isBlank =
    left, Text.trimEndChars after = right
  constructor
  · intro h
    have hinside {word : List Char}
        (heq : (left ++ (standard.truthText value).toList ++ right).map
          Char.toLower = word) :
        (standard.truthText value).toList.map Char.toLower <:+: word := by
      have hinside : (standard.truthText value).toList <:+:
          left ++ (standard.truthText value).toList ++ right :=
        ⟨left, right, rfl⟩
      exact heq ▸ hinside.map Char.toLower
    cases value with
    | false =>
        -- "no" stands neither in "yes" nor in "true"
        rcases h with h | h
        · exact absurd (hinside h) (by decide)
        · exact absurd (hinside h) (by decide)
    | true =>
        rcases h with h | h
        · have hlength := congrArg List.length h
          have hthree : (standard.truthText true).toList.length = 3 := by decide
          have hyes : "yes".toList.length = 3 := by decide
          simp only [List.length_map, List.length_append, hthree, hyes]
            at hlength
          refine ⟨rfl, List.length_eq_zero_iff.mp ?_,
            List.length_eq_zero_iff.mp ?_⟩
          · omega
          · omega
        · exact absurd (hinside h) (by decide)
  · rintro ⟨rfl, rfl, rfl⟩
    left
    decide

namespace Equation

variable {e f : Equation} {es : List Equation}

/--
The equation is read alone: what is replaced in it has only white space around
it.
-/
def ReadAlone (es : List Equation) (e : Equation) : Prop :=
  ∀ f, reader? es e = some f → ∃ before after,
    e.text.toList = before ++ f.text.toList ++ after ∧
      (∀ c ∈ before, Text.isBlank c = true) ∧ ∀ c ∈ after, Text.isBlank c = true

private theorem holds_of_blank_around {before after : List Char} (he : e.Plain)
    (hf : f.Plain) (hinside : e.text.toList = before ++ f.text.toList ++ after)
    (hbefore : ∀ c ∈ before, Text.isBlank c = true)
    (hafter : ∀ c ∈ after, Text.isBlank c = true) : e.Holds ↔ f.Holds := by
  obtain ⟨hlhs, hrhs⟩ := sides_of_inside he hf hinside
  have hleft : Text.trim e.lhs = Text.trim f.lhs := by
    rw [Text.trim, Text.trim, hlhs, Text.trimChars_append_of_blank_left hbefore]
  have hright : Text.trim e.rhs = Text.trim f.rhs := by
    rw [Text.trim, Text.trim, hrhs, Text.trimChars_append_of_blank_right hafter]
  rw [Holds, Holds, hleft, hright]

private theorem isTrue_rewritten (hplain : ∀ f ∈ es, f.Plain) (he : e ∈ es) :
    Settings.standard.isTrue (String.ofList (e.rewritten .standard es)) = true ↔
      e.Holds ∧ ReadAlone es e := by
  obtain ⟨f, hreader⟩ := exists_reader he
  obtain ⟨hf, before, after, hinside⟩ := exists_inside hreader
  have hholds : Comparator.equal.holds f.lhs f.rhs = true ↔ f.Holds :=
    beq_iff_eq
  rw [rewritten_of_inside (hplain e he) (hplain f hf) hreader hinside,
    truthText, Settings.isTrue_around, hholds]
  constructor
  · rintro ⟨hholds, hbefore, hafter⟩
    refine ⟨(holds_of_blank_around (hplain e he)
      (hplain f hf) hinside hbefore hafter).mpr hholds, fun g hg => ?_⟩
    rw [hreader, Option.some.injEq] at hg
    subst hg
    exact ⟨before, after, hinside, hbefore, hafter⟩
  · rintro ⟨hholds, halone⟩
    obtain ⟨before', after', hinside', hbefore', hafter'⟩ := halone f hreader
    -- the other equation stands in this one at one place only
    obtain ⟨hlhs, hrhs⟩ := sides_of_inside (hplain e he) (hplain f hf) hinside
    obtain ⟨hlhs', hrhs'⟩ :=
      sides_of_inside (hplain e he) (hplain f hf) hinside'
    rw [hlhs] at hlhs'
    rw [hrhs] at hrhs'
    rw [List.append_cancel_right hlhs', List.append_cancel_left hrhs']
    have hsame := holds_of_blank_around (hplain e he)
      (hplain f hf) hinside' hbefore' hafter'
    exact ⟨hsame.mp hholds, hbefore', hafter'⟩

end Equation

/--
A conjunction of equations under the standard settings is `Yes` exactly when
every equation holds and is read alone, and `No` otherwise.
-/
theorem solveText_conjunction (env : Environment) (row : Row)
    (es : List Equation) (hsettings : env.settings = .standard)
    (hlength : 2 ≤ es.length) (hplain : ∀ e ∈ es, e.Plain) :
    ((solveText env row (conjunction es)).result = .ok "Yes" ↔
        ∀ e ∈ es, e.Holds ∧ e.ReadAlone es) ∧
      ((solveText env row (conjunction es)).result = .ok "No" ↔
        ¬ ∀ e ∈ es, e.Holds ∧ e.ReadAlone es) := by
  have htrue : Plain env.settings.trueValue := by
    rw [hsettings]
    decide
  have hfalse : Plain env.settings.falseValue := by
    rw [hsettings]
    decide
  have hall : (leftOver .standard es es).all Settings.standard.isTrue = true ↔
      ∀ e ∈ es, e.Holds ∧ e.ReadAlone es := by
    rw [leftOver, List.all_map, List.all_eq_true]
    refine forall₂_congr fun e he => ?_
    rw [Function.comp_apply, Equation.isTrue_rewritten hplain he]
  have hanswer (judged : Bool) :
      Text.trim (Settings.standard.truthText judged) =
      if judged = true then "Yes" else "No" := by cases judged <;> decide
  rw [result_solveText_conjunction hplain hlength htrue hfalse, hsettings,
    ← hall, hanswer]
  generalize (leftOver .standard es es).all Settings.standard.isTrue = judged
  cases judged <;> simp

/--
White space around the first equation does not matter where it stands in the
second one.
-/
theorem solveText_conjunction_spaced :
    (solveText conditionEnvironment conditionRow "AND(a==a, a==a )").result =
      .ok "Yes" := by
  have hplain : ∀ e ∈ [Equation.mk "a" "a", ⟨" a", "a "⟩], e.Plain := by decide
  have hread : ∀ e ∈ [Equation.mk "a" "a", ⟨" a", "a "⟩],
      Equation.reader? [⟨"a", "a"⟩, ⟨" a", "a "⟩] e =
        some ⟨"a", "a"⟩ := by decide
  have htext : conjunction [⟨"a", "a"⟩, ⟨" a", "a "⟩] = "AND(a==a, a==a )" := by
    decide
  rw [← htext]
  refine (solveText_conjunction conditionEnvironment conditionRow _ rfl
      (by decide) hplain).1.mpr
    fun e he => ⟨?_, fun f hf => ?_⟩
  · have hholds : ∀ e ∈ [Equation.mk "a" "a", ⟨" a", "a "⟩],
        Text.trim e.lhs = Text.trim e.rhs := by decide
    exact hholds e he
  · rw [hread e he, Option.some.injEq] at hf
    subst hf
    rcases List.mem_pair.mp he with rfl | rfl
    · exact ⟨[], [], by decide, fun c hc => absurd hc List.not_mem_nil,
        fun c hc => absurd hc List.not_mem_nil⟩
    · have hblank : ∀ c ∈ [' '], Text.isBlank c = true :=
        List.forall_mem_singleton.mpr (by decide)
      exact ⟨[' '], [' '], by decide, hblank, hblank⟩

/--
Both equations hold, but the first one stands in the second one between letters.
-/
theorem no_of_equation_inside_longer :
    (∀ e ∈ [Equation.mk "a" "a", ⟨"aa", "aa"⟩], e.Plain ∧ e.Holds) ∧
      conjunction [⟨"a", "a"⟩, ⟨"aa", "aa"⟩] = "AND(a==a,aa==aa)" ∧
      (solveText conditionEnvironment conditionRow "AND(a==a,aa==aa)").result =
        .ok "No" := by
  have hplain : ∀ e ∈ [Equation.mk "a" "a", ⟨"aa", "aa"⟩], e.Plain := by decide
  have hholds : ∀ e ∈ [Equation.mk "a" "a", ⟨"aa", "aa"⟩],
      Text.trim e.lhs = Text.trim e.rhs := by decide
  have htext : conjunction [⟨"a", "a"⟩, ⟨"aa", "aa"⟩] = "AND(a==a,aa==aa)" := by
    decide
  have hjudged : ((leftOver .standard [⟨"a", "a"⟩, ⟨"aa", "aa"⟩]
      [⟨"a", "a"⟩, ⟨"aa", "aa"⟩]).all Settings.standard.isTrue) =
        false := by decide
  refine ⟨fun e he => ⟨hplain e he, hholds e he⟩, htext, ?_⟩
  have hresult : (solveText conditionEnvironment conditionRow _).result = _ :=
    result_solveText_conjunction hplain (by decide) (by decide) (by decide)
  have hsettings : conditionEnvironment.settings = .standard := rfl
  rw [htext, hsettings, hjudged] at hresult
  rw [hresult]
  decide

end ReportDesk.Formula
