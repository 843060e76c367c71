import Mathlib.Data.List.Nodup
import ReportDesk.Proofs.Formula.CallText
import ReportDesk.Proofs.Formula.Locality
import ReportDesk.Proofs.Formula.Replacement

/-!
# The stage of a function

When the functions before `f` are solved, the operands of every call of `f`
are literals.  The stage of `f` finds exactly these calls, and replaces each of
them by its value.
-/

namespace ReportDesk.Formula

open Text (Silent)

variable {ι : Type}

/-! ## What a stage finds -/

namespace Function

private theorem two_le_of_accepts {f : Function} (hnext : f ≠ .next)
    {count : Nat} (h : f.arity.accepts count = true) : 2 ≤ count := by
  cases f with
  | next => exact absurd rfl hnext
  | _ =>
      simp only [arity, Arity.accepts, beq_iff_eq, decide_eq_true_eq] at h
      omega

private theorem rank_le {f g : Function} {fs : List Function}
    (h : f :: fs <:+ all) (hmem : g ∈ f :: fs) : f.rank ≤ g.rank := by
  obtain ⟨solved, hsolved⟩ := h
  have hnodup : (solved ++ f :: fs).Nodup := by
    rw [hsolved]
    decide
  have hfresh (g : Function) (hmem : g ∈ f :: fs) : g ∉ solved :=
    fun hsolved => List.disjoint_of_nodup_append hnodup hsolved hmem
  rw [rank, rank, ← hsolved,
    List.idxOf_append_of_notMem (hfresh f List.mem_cons_self),
    List.idxOf_append_of_notMem (hfresh g hmem), List.idxOf_cons_self]
  omega

end Function

def Fragment.key (f : Fragment) : Reference × String :=
  (f.reference, f.text)

def callText (f : Function) (operands : List String) : String :=
  String.ofList (callChars f.name (operands.map String.toList))

theorem toList_callText (f : Function) (operands : List String) :
    (callText f operands).toList =
      callChars f.name (operands.map String.toList) :=
  String.toList_ofList

structure Solvable (f : Function) (operands : List String) : Prop where
  sum : f ≠ .sum
  next : f ≠ .next
  arity : f.arity.accepts operands.length = true
  plain : ∀ operand ∈ operands, Plain operand

theorem Solvable.length {f : Function} {operands : List String}
    (h : Solvable f operands) :
    2 ≤ operands.length :=
  Function.two_le_of_accepts h.next h.arity

theorem Solvable.readable {f : Function} {operands : List String}
    (h : Solvable f operands) :
    Readable (operands.map String.toList) := by
  refine readable_of_plain ?_ h.plain
  rintro rfl
  exact absurd h.length (by decide)

def callFound (f : Function) (operands : List String) : CallBody × List Char :=
  (.closed (Text.joinWith [','] (operands.map String.toList)),
    callChars f.name (operands.map String.toList))

private theorem exists_calls {f : Function}
    {occurrences : List (Text.Occurrence CallBody)} {calls : List (List String)}
    (hfound : occurrences.map (fun o => (o.value, o.covered)) =
      calls.map (callFound f))
    (hcalls : ∀ operands ∈ calls, Solvable f operands) :
    ∃ closed fragments, closedCalls occurrences = .ok closed ∧
      closed.mapM (callFragment f.name) = .ok fragments ∧
      fragments.map Fragment.key =
        calls.map fun operands =>
          (.call f.name operands, callText f operands) := by
  induction calls generalizing occurrences with
  | nil =>
      rw [List.map_nil, List.map_eq_nil_iff] at hfound
      rw [hfound]
      exact ⟨[], [], rfl, rfl, rfl⟩
  | cons operands calls ih =>
      cases occurrences with
      | nil => cases hfound
      | cons o occurrences =>
          rw [List.map_cons, List.map_cons, List.cons_eq_cons] at hfound
          rw [List.forall_mem_cons] at hcalls
          obtain ⟨hsolvable, hcalls⟩ := hcalls
          obtain ⟨closed, fragments, hclosed, hfragments, hkeys⟩ :=
            ih hfound.2 hcalls
          obtain ⟨hvalue, hcovered⟩ := Prod.mk.inj hfound.1
          have hopening :
              ¬ (Text.joinWith [','] (operands.map String.toList)).contains
                '(' = true := by
            rw [List.contains_iff_mem]
            exact hsolvable.readable.opening_body
          refine ⟨⟨o.start, String.ofList o.covered,
            Text.joinWith [','] (operands.map String.toList)⟩ :: closed,
            ⟨.call f.name operands, callText f operands, o.start⟩ :: fragments,
              ?_, ?_, ?_⟩
          · rw [closedCalls, hvalue, hclosed]
            rfl
          · rw [List.mapM_cons, callFragment, if_neg hopening, hfragments,
              operandsOf_joinWith hsolvable.length hsolvable.plain, hcovered]
            rfl
          · rw [List.map_cons, List.map_cons, hkeys]
            rfl

/-! ## Expressions in which some functions are left -/

structure Remaining (fs : List Function) (e : Expression) : Prop where
  ordered : e.Ordered
  columns : ∀ name part, ¬ e.Refers name part
  calls : ∀ g, e.Calls g → g ∈ fs

inductive Due (f : Function) : Expression → Prop where
  | literal {text : String} (hplain : Plain text) : Due f (.literal text)
  | call {texts : List String} (h : Solvable f texts) :
      Due f (.call f (texts.map .literal))
  | later {g : Function} {operands : List Expression} (hne : g ≠ f) :
      Due f (.call g operands)

private theorem exists_literals {operands : List Expression}
    (h : ∀ e ∈ operands, e.Ordered ∧ (∀ name part, ¬ e.Refers name part) ∧ ∀ g,
      ¬ e.Calls g) :
    ∃ texts : List String, operands = texts.map .literal ∧ ∀ text ∈ texts,
      Plain text := by
  induction operands with
  | nil => exact ⟨[], rfl, fun text hmem => absurd hmem List.not_mem_nil⟩
  | cons e operands ih =>
      rw [List.forall_mem_cons] at h
      obtain ⟨⟨hordered, hcolumns, hcalls⟩, hrest⟩ := h
      obtain ⟨texts, rfl, hplain⟩ := ih hrest
      cases hordered with
      | @literal text htext =>
          refine ⟨text :: texts, rfl, ?_⟩
          rw [List.forall_mem_cons]
          exact ⟨htext, hplain⟩
      | column hname =>
          exact absurd (Expression.self_mem_parts _) (hcolumns _ _)
      | call => exact absurd ⟨_, Expression.self_mem_parts _⟩ (hcalls _)

private theorem Remaining.due {f : Function} {fs : List Function}
    (hfs : f :: fs <:+ Function.all) {e s : Expression}
    (h : Remaining (f :: fs) e) (hs : s ∈ e.parts) :
    Due f s := by
  have hordered : s.Ordered := h.ordered.of_mem_parts hs
  cases hordered with
  | literal hplain => exact .literal hplain
  | column hname => exact absurd hs (h.columns _ _)
  | @call g operands hsum hnext harity hoperands hearlier =>
      by_cases hg : g = f
      · rw [hg] at hs hearlier hsum hnext harity
        have hliterals : ∃ texts : List String, operands = texts.map .literal ∧
            ∀ text ∈ texts, Plain text := by
          refine exists_literals fun e' hmem => ?_
          refine ⟨hoperands e' hmem, fun name part hrefers => ?_,
            fun g ⟨operands', hcall⟩ => ?_⟩
          · exact h.columns name part
              (Expression.mem_parts_trans hs
                (Expression.mem_parts_of_operand hmem hrefers))
          · have hlater : f.rank ≤ g.rank :=
              Function.rank_le hfs (h.calls g ⟨operands',
                Expression.mem_parts_trans hs
                  (Expression.mem_parts_of_operand hmem hcall)⟩)
            have hless : g.rank < f.rank :=
              hearlier e' hmem g ⟨operands', hcall⟩
            omega
        obtain ⟨texts, rfl, hplain⟩ := hliterals
        rw [hg]
        rw [List.length_map] at harity
        exact .call ⟨hsum, hnext, harity, hplain⟩
      · exact .later hg

/-! ## The calls that are due -/

def operandTexts (f : Function) : Expression → Option (List String)
  | .call g operands =>
    if g = f then some (operands.map Expression.text) else none
  | _ => none

theorem operandTexts_literals (f : Function) (texts : List String) :
    operandTexts f (.call f (texts.map .literal)) = some texts := by
  have htext : texts.map (fun text => (Expression.literal text).text) =
      texts := by
    simp [Expression.text, Expression.chars]
  rw [operandTexts, if_pos rfl, List.map_map]
  exact congrArg some htext

private theorem filterMap_parts_literals (hit : Expression → Option ι)
    (texts : List String) (h : ∀ text, hit (.literal text) = none) :
    ((texts.map Expression.literal).flatMap Expression.parts).filterMap hit =
      [] := by
  induction texts with
  | nil => rfl
  | cons text texts ih =>
      rw [List.map_cons, List.flatMap_cons, List.filterMap_append, ih]
      simp [Expression.parts, h]

private theorem silentName_opener {f g : Function} (hne : g ≠ f)
    (operands : List Expression) :
    Expression.SilentName (opener f.name) (.call g operands) := by
  refine ⟨g, operands, rfl, fun rest => ?_⟩
  exact silent_opener f.isName (g.isName.not_mem (by decide))
    (Function.not_suffix (Ne.symm hne))

theorem scans_calls {f : Function} {e : Expression}
    (h : ∀ s ∈ e.parts, Due f s) :
    Scans (recogniseCall f.name) e.chars
      ((e.parts.filterMap (operandTexts f)).map (callFound f)) := by
  rw [List.map_filterMap]
  refine Expression.scans_parts (recogniseCall f.name)
    (fun _ _ => recogniseCall_eq_pass) (apart_opener f.isName)
    (fun s => (operandTexts f s).map (callFound f)) fun s hs => ?_
  cases h s hs with
  | literal hplain =>
      left
      exact Scans.of_silent (fun _ _ => recogniseCall_eq_pass)
        (apart_opener f.isName) fun rest hrest =>
          silent_opener_of_not_mem f.isName (hplain.not_mem (by decide)) hrest
  | @call texts hsolvable =>
      left
      have hself := scans_callChars f.isName hsolvable.readable
      rw [Expression.parts_call,
        List.filterMap_cons_some (b := callFound f texts),
        filterMap_parts_literals, Expression.chars_call,
        Expression.chars_literals]
      · exact hself
      · exact fun text => rfl
      · rw [operandTexts_literals]
        rfl
  | @later g operands hne =>
      right
      refine ⟨?_, silentName_opener hne operands⟩
      rw [operandTexts, if_neg hne]
      rfl

private theorem exists_fragments (env : Environment) {f : Function}
    {e : Expression} (h : ∀ s ∈ e.parts, Due f s) :
    ∃ fragments, Stage.fragments env e.text (.calls f) = .ok fragments ∧
      fragments.map Fragment.key = (e.parts.filterMap (operandTexts f)).map
        fun operands => (.call f.name operands, callText f operands) := by
  have hfound := scans_calls h none none [] opens_none closes_nil
  rw [List.append_nil, Text.finds, List.append_nil, ← Text.map_scanFrom _ _ 0]
    at hfound
  have hcalls : ∀ operands ∈ e.parts.filterMap (operandTexts f),
      Solvable f operands := by
    intro operands hmem
    obtain ⟨s, hs, hoperands⟩ := List.mem_filterMap.mp hmem
    cases h s hs with
    | literal hplain => cases hoperands
    | call hsolvable =>
        rw [operandTexts_literals] at hoperands
        cases hoperands
        exact hsolvable
    | later hne =>
        rw [operandTexts, if_neg hne] at hoperands
        cases hoperands
  obtain ⟨closed, fragments, hclosed, hfragments, hkeys⟩ :=
    exists_calls hfound hcalls
  refine ⟨fragments, ?_, hkeys⟩
  rw [Stage.fragments, findCalls, findClosedCalls, Expression.toList_text,
    Text.scan, hclosed]
  exact hfragments

/-! ## Replacing a call by its value -/

private theorem callChars_ne {f g : Function} (hne : g ≠ f)
    (operands operands' : List (List Char)) :
    callChars g.name operands ≠ callChars f.name operands' := by
  intro heq
  have hshort : g.name.toList ++ ['('] <+: f.name.toList ++
      '(' :: (Text.joinWith [','] operands' ++ [')']) := by
    have hopener := opener_prefix_callChars g.name operands
    rw [heq, callChars, List.append_assoc, List.singleton_append] at hopener
    exact hopener
  have hname := eq_of_isPrefix (g.isName.not_mem (by decide))
    (f.isName.not_mem (by decide)) hshort
  exact Function.not_suffix hne (hname ▸ List.suffix_refl _)

private theorem apart_callText (f : Function) (operands : List String) :
    Apart (callText f operands).toList := by
  intro c rest hc hstarts
  rw [toList_callText] at hstarts
  exact apart_opener f.isName c rest hc
    ((opener_prefix_callChars _ _).trans hstarts)

section Replacing

variable {f : Function} {operands : List String}
  (hsolvable : Solvable f operands)

include hsolvable

private theorem Due.eq_call {s : Expression} (h : Due f s)
    (heq : s.chars = (callText f operands).toList) :
    s = .call f (operands.map .literal) := by
  rw [toList_callText] at heq
  cases h with
  | @literal text htext =>
      have hmem : '(' ∈ (Expression.literal text).chars := by
        rw [heq]
        exact (opener_prefix_callChars _ _).subset (by simp [opener])
      exact absurd hmem (htext.not_mem (by decide))
  | @call texts htexts =>
      rw [Expression.chars_call, Expression.chars_literals] at heq
      have hshort : callChars f.name (texts.map String.toList) <+:
          callChars f.name (operands.map String.toList) ++ [] := by
        rw [heq, List.append_nil]
      have hoperands := callChars_inj htexts.readable hsolvable.readable hshort
      rw [List.map_inj_right fun _ _ => String.toList_inj.mp] at hoperands
      rw [hoperands]
  | later hne =>
      rw [Expression.chars_call] at heq
      exact absurd heq (callChars_ne hne _ _)

theorem replace_call_literals {texts : List String} (htexts : Solvable f texts)
    {new : String} (hne : (Expression.call f (texts.map .literal)).chars ≠
      (callText f operands).toList) :
    (Expression.call f (texts.map .literal)).replace
      (callText f operands).toList new =
      .call f (texts.map .literal) := by
  rw [Expression.replace_call hne, List.map_map]
  congr 1
  refine List.map_congr_left fun text hmem =>
    Expression.replace_literal fun hchars => ?_
  have hcall :=
    (Due.literal (f := f) (htexts.plain text hmem)).eq_call hsolvable hchars
  cases hcall

theorem Due.rewrites {s : Expression} (h : Due f s) (new : String) :
    Rewrites (callText f operands).toList new.toList s.chars
        (s.replace (callText f operands).toList new).chars ∨
      s.chars ≠ (callText f operands).toList ∧
        Expression.SilentName (callText f operands).toList s := by
  have hopener : opener f.name <+: (callText f operands).toList := by
    rw [toList_callText]
    exact opener_prefix_callChars _ _
  by_cases heq : s.chars = (callText f operands).toList
  · left
    rw [Expression.replace_of_eq heq, heq]
    intro rest _
    exact Text.replaceFrom_append_self
      fun hnil => by simp [callChars, toList_callText] at hnil
  · cases h with
    | @literal text htext =>
        left
        rw [Expression.replace_literal heq]
        exact Rewrites.of_silent fun rest hrest =>
          (silent_opener_of_not_mem f.isName
            (htext.not_mem (by decide)) hrest).of_isPrefix hopener
    | @call texts htexts =>
        left
        rw [replace_call_literals hsolvable htexts heq]
        rw [Expression.chars_call, Expression.chars_literals, toList_callText]
          at heq ⊢
        refine Rewrites.of_silent fun rest hrest => ?_
        exact silent_callChars hsolvable.readable htexts.readable
          (fun hoperands => heq (by rw [hoperands])) hrest
    | @later g operands' hne =>
        right
        obtain ⟨g, operands', hcall, hsilent⟩ := silentName_opener hne operands'
        exact ⟨heq, g, operands', hcall,
          fun rest => (hsilent rest).of_isPrefix hopener⟩

end Replacing

/-! ## The stage as a whole -/

section Solving

variable {env : Environment} {row : Row} {f : Function} {fs : List Function}

private theorem result_fragmentValue {fragment : Fragment}
    {operands : List String}
    (hkey : fragment.key = (.call f.name operands, callText f operands)) :
    (fragmentValue env row fragment).result =
      (Expression.call f (operands.map .literal)).value env row := by
  obtain ⟨hreference, htext⟩ := Prod.mk.inj hkey
  rw [fragmentValue, hreference, htext, Expression.value,
    Expression.valueAll_literals]
  rfl

private theorem plain_value (htrue : Plain env.settings.trueValue)
    (hfalse : Plain env.settings.falseValue) {operands : List String}
    (h : Solvable f operands) {v : String}
    (hv : (Expression.call f (operands.map .literal)).value env row = .ok v) :
    Plain v := by
  rw [Expression.value, Expression.valueAll_literals] at hv
  change (callByName env.settings env.ids.uuid _ f.name operands).result =
    .ok v at hv
  rw [callByName, Function.ofName?_name] at hv
  exact Function.plain_of_call htrue hfalse h.sum h.next h.plain hv

/--
While the fragments listed are still to be replaced in what has become of
`whole`.
-/
structure Pending (env : Environment) (row : Row) (f : Function)
    (fs : List Function) (whole : Expression) (fragments : List Fragment)
    (e : Expression) : Prop where
  remaining : Remaining (f :: fs) e
  value : e.value env row = whole.value env row
  keys : ∀ fragment ∈ fragments, ∃ operands, Solvable f operands ∧
    fragment.key = (.call f.name operands, callText f operands)
  covered : ∀ operands, .call f operands ∈ e.parts →
    ∃ fragment ∈ fragments,
      fragment.text.toList = (Expression.call f operands).chars

variable (hfs : f :: fs <:+ Function.all) (htrue : Plain env.settings.trueValue)
  (hfalse : Plain env.settings.falseValue)

include hfs htrue hfalse

theorem Pending.step {whole e : Expression} {fragment : Fragment}
    {fragments : List Fragment} {v : String}
    (h : Pending env row f fs whole (fragment :: fragments) e)
    (hv : (fragmentValue env row fragment).result = .ok v) :
    Rewrites fragment.text.toList v.toList e.chars
        (e.replace fragment.text.toList v).chars ∧
      Pending env row f fs whole fragments
        (e.replace fragment.text.toList v) := by
  obtain ⟨⟨operands, hsolvable, hkey⟩, hkeys⟩ := List.forall_mem_cons.mp h.keys
  have hdue (s : Expression) (hs : s ∈ e.parts) : Due f s :=
    h.remaining.due hfs hs
  rw [result_fragmentValue hkey] at hv
  have hplain : Plain v := plain_value htrue hfalse hsolvable hv
  have htext : fragment.text = callText f operands := (Prod.mk.inj hkey).2
  rw [htext]
  refine ⟨Expression.rewrites_replace (apart_callText f operands)
    fun s hs => (hdue s hs).rewrites hsolvable v, ?_, ?_, hkeys, ?_⟩
  · exact ⟨h.remaining.ordered.replace hplain,
      fun name part hrefers => h.remaining.columns name part
        (Expression.refers_of_replace hrefers).1,
      fun g hcalls => h.remaining.calls g (Expression.calls_of_replace hcalls)⟩
  · rw [← h.value]
    refine Expression.value_replace fun s hs heq => ?_
    rw [(hdue s hs).eq_call hsolvable heq, hv]
  · -- a call that is left was there before, and its text is not the one just
    -- replaced
    intro operands' hs
    rcases Expression.of_mem_parts_replace hs with heq | ⟨t, ht, hne, heq⟩
    · cases heq
    · cases hdue t ht with
      | literal htext =>
          rw [Expression.replace_literal hne] at heq
          cases heq
      | call htexts =>
          rw [replace_call_literals hsolvable htexts hne] at heq
          rw [← heq] at ht hne
          obtain ⟨other, hmem, hother⟩ := h.covered operands' ht
          rcases List.mem_cons.mp hmem with rfl | hmem
          · rw [htext] at hother
            exact absurd hother.symm hne
          · exact ⟨other, hmem, hother⟩
      | later hg =>
          rw [Expression.replace_call hne] at heq
          cases heq
          exact absurd rfl hg

omit env row htrue hfalse in
theorem exists_pending (env : Environment) (row : Row) {e : Expression}
    (h : Remaining (f :: fs) e) :
    ∃ fragments, Stage.fragments env e.text (.calls f) = .ok fragments ∧
      Pending env row f fs e fragments e ∧
      ∀ fragment ∈ fragments, ∃ s ∈ e.parts,
        (fragmentValue env row fragment).result = s.value env row := by
  have hdue (s : Expression) (hs : s ∈ e.parts) : Due f s := h.due hfs hs
  obtain ⟨fragments, hfragments, hkeys⟩ := exists_fragments env hdue
  have hpart (fragment : Fragment) (hmem : fragment ∈ fragments) :
      ∃ operands, Solvable f operands ∧
        .call f (operands.map .literal) ∈ e.parts ∧
        fragment.key = (.call f.name operands, callText f operands) := by
    have hkey := List.mem_map_of_mem (f := Fragment.key) hmem
    rw [hkeys, List.mem_map] at hkey
    obtain ⟨operands, hoperands, hkey⟩ := hkey
    obtain ⟨s, hs, htexts⟩ := List.mem_filterMap.mp hoperands
    cases hdue s hs with
    | literal htext => cases htexts
    | call hsolvable =>
        rw [operandTexts_literals] at htexts
        cases htexts
        exact ⟨operands, hsolvable, hs, hkey.symm⟩
    | later hne =>
        rw [operandTexts, if_neg hne] at htexts
        cases htexts
  refine ⟨fragments, hfragments, ⟨h, rfl, ?_, ?_⟩, ?_⟩
  · intro fragment hmem
    obtain ⟨operands, hsolvable, -, hkey⟩ := hpart fragment hmem
    exact ⟨operands, hsolvable, hkey⟩
  · intro operands hs
    cases hdue _ hs with
    | @call texts hsolvable =>
        have hkey : (Reference.call f.name texts, callText f texts) ∈
            fragments.map Fragment.key := by
          rw [hkeys]
          refine List.mem_map_of_mem
            (f := fun operands =>
              (Reference.call f.name operands, callText f operands))
            (List.mem_filterMap.mpr ⟨_, hs, ?_⟩)
          exact operandTexts_literals f texts
        obtain ⟨fragment, hmem, hfragment⟩ := List.mem_map.mp hkey
        refine ⟨fragment, hmem, ?_⟩
        rw [(Prod.mk.inj hfragment).2, toList_callText, Expression.chars_call,
          Expression.chars_literals]
    | later hne => exact absurd rfl hne
  · intro fragment hmem
    obtain ⟨operands, -, hs, hkey⟩ := hpart fragment hmem
    exact ⟨_, hs, result_fragmentValue hkey⟩

theorem call_stage {e : Expression} (h : Remaining (f :: fs) e)
    (traced : Bool) :
    (∃ e' : Expression,
        ((Stage.calls f).run env row traced e.text).result = .ok e'.text ∧
      Remaining fs e' ∧ e'.value env row = e.value env row) ∨
    (∀ text, ((Stage.calls f).run env row traced e.text).result ≠ .ok text) ∧
      ∀ v, e.value env row ≠ .ok v := by
  obtain ⟨fragments, hfragments, hpending, hparts⟩ :=
    exists_pending hfs env row h
  have hrun : ((Stage.calls f).run env row traced e.text).result =
      (substitute (fragmentValue env row) fragments e.chars).result.map
        String.ofList := by
    rw [Stage.result_run, hfragments, Expression.toList_text]
    rfl
  rw [hrun]
  by_cases hvalues : ∀ fragment ∈ fragments, ∃ v,
    (fragmentValue env row fragment).result = .ok v
  · left
    obtain ⟨e', hresult, hend⟩ := substitute_run
      (fun _ _ _ _ hpending hv => hpending.step hfs htrue hfalse hv)
      hvalues hpending
    refine ⟨e', by rw [hresult]; rfl,
      ⟨hend.remaining.ordered, hend.remaining.columns, ?_⟩, hend.value⟩
    intro g hcalls
    rcases List.mem_cons.mp (hend.remaining.calls g hcalls) with rfl | hmem
    · obtain ⟨operands, hs⟩ := hcalls
      obtain ⟨fragment, hmem, -⟩ := hend.covered operands hs
      exact absurd hmem List.not_mem_nil
    · exact hmem
  · right
    constructor
    · intro text htext
      cases hresult :
        (substitute (fragmentValue env row) fragments e.chars).result with
      | error error =>
          rw [hresult] at htext
          cases htext
      | ok cs => exact hvalues (exists_value_of_substitute hresult)
    · intro v hv
      refine hvalues fun fragment hmem => ?_
      obtain ⟨s, hs, hvalue⟩ := hparts fragment hmem
      rw [hvalue]
      exact Expression.exists_value_of_mem_parts hv hs

omit row hfs in
/-- The stages of the functions answer the value of the tree. -/
theorem call_stages (row : Row) {fs : List Function} (hfs : fs <:+ Function.all)
    {e : Expression} (h : Remaining fs e) (traced : Bool) (v : String) :
    (Stage.runAll env row traced (fs.map .calls) e.text).result = .ok v ↔
      e.value env row = .ok v := by
  induction fs generalizing e with
  | nil =>
      cases e with
      | literal text =>
          change (Except.ok (String.ofList text.toList) : Except Error String) =
              .ok v ↔ _
          rw [String.ofList_toList, Expression.value]
      | column name part =>
          exact absurd (Expression.self_mem_parts _) (h.columns name part)
      | call f operands =>
          exact absurd (h.calls f ⟨operands, Expression.self_mem_parts _⟩)
            List.not_mem_nil
  | cons f fs ih =>
      rw [List.map_cons, Stage.runAll, Logged.result_bind]
      rcases call_stage hfs htrue hfalse h traced
        with ⟨e', hrun, hrest, hvalue⟩ | ⟨hrun, hvalue⟩
      · rw [hrun, ← hvalue]
        exact ih ((List.suffix_cons f fs).trans hfs) hrest
      · constructor
        · intro hv
          cases hstage : ((Stage.calls f).run env row traced e.text).result with
          | error error =>
              rw [hstage] at hv
              cases hv
          | ok text => exact absurd hstage (hrun text)
        · exact fun hv => absurd hv (hvalue v)

end Solving

end ReportDesk.Formula
