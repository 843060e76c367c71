import ReportDesk.Proofs.Formula.CallStage

/-!
# The stages before the functions

In a well-formed expression a percent sign starts a reference to a column and
nothing else.  The stage of the columns replaces each reference by its value;
the other stages before the functions find nothing.
-/

namespace ReportDesk.Formula

open Text (Silent finds)

/-! ## References -/

def referenceChars (name : String) (part : Cell.Part) : List Char :=
  (Expression.column name part).chars

theorem referenceChars_eq (name : String) (part : Cell.Part) :
    referenceChars name part =
      '%' :: (name.toList ++ '.' :: part.name.toList) := rfl

namespace Expression

variable {name : String} (h : IsColumnName name)

include h

theorem IsColumnName.identifier :
    ∀ c ∈ name.toList, Text.isIdentifierChar c = true :=
  List.all_eq_true.mp h.2

theorem IsColumnName.not_mem {sign : Char} (hsign : isSign sign = true) :
    sign ∉ name.toList := by
  intro hmem
  rw [isSign_of_isIdentifierChar (h.identifier sign hmem)] at hsign
  cases hsign

private theorem IsColumnName.point_not_mem : '.' ∉ name.toList := by
  intro hmem
  exact absurd (h.identifier '.' hmem) (by decide)

theorem IsColumnName.percent_not_mem (part : Cell.Part) :
    '%' ∉ name.toList ++ '.' :: part.name.toList := by
  intro hmem
  rw [List.mem_append, List.mem_cons] at hmem
  rcases hmem with hmem | hmem | hmem
  · exact h.not_mem (by decide) hmem
  · exact absurd hmem (by decide)
  · cases part <;> exact absurd hmem (by decide)

end Expression

theorem apart_percent (pattern : List Char) : Apart ('%' :: pattern) := by
  intro c rest hc hstarts
  have heq : '%' = c := (List.cons_prefix_cons.mp hstarts).1
  rcases hc with rfl | rfl
  · exact absurd heq (by decide)
  · exact absurd heq (by decide)

theorem silentName_percent (pattern : List Char) (f : Function)
    (operands : List Expression) :
    Expression.SilentName ('%' :: pattern) (.call f operands) := by
  refine ⟨f, operands, rfl, fun rest => Text.silent_of_first fun hmem => ?_⟩
  rcases List.mem_append.mp hmem with hmem | hmem
  · exact f.isName.not_mem (by decide) hmem
  · exact absurd hmem (by decide)

private theorem isPrefixOf_part (part : Cell.Part) (rest : List Char) :
    partAtStart? (part.name.toList ++ rest) = some part := by
  cases part <;> rfl

private theorem part_of_isPrefix {part part' : Cell.Part} {rest : List Char}
    (h : part.name.toList <+: part'.name.toList ++ rest) : part = part' := by
  rw [← List.isPrefixOf_iff_prefix] at h
  cases part <;> cases part'
  · rfl
  · cases h
  · cases h
  · rfl

/-! ## Scans that stop at a percent sign -/

section Scanning

variable {α : Type} {lookup? : String → Option α}

theorem recogniseName_eq_pass {previous : Option Char} {cs : List Char}
    (h : ¬ ['%'] <+: cs) : recogniseName lookup? previous cs = .pass := by
  unfold recogniseName
  split
  next rest => exact absurd ⟨rest, rfl⟩ h
  · rfl

theorem recogniseColumn_eq_pass {previous : Option Char} {cs : List Char}
    (h : ¬ ['%'] <+: cs) : recogniseColumn previous cs = .pass := by
  unfold recogniseColumn
  split
  next rest => exact absurd ⟨rest, rfl⟩ h
  · rfl

private theorem endsName_dropWhile {cs rest : List Char}
    (h : ∀ c ∈ cs, Text.isIdentifierChar c = true) :
    endsName ((cs ++ '.' :: rest).dropWhile isCapitalIdentifierChar) =
      false := by
  induction cs with
  | nil => rfl
  | cons c cs ih =>
      rw [List.forall_mem_cons] at h
      rw [List.cons_append, List.dropWhile_cons]
      split
      · exact ih h.2
      · simp [endsName, h.1]

theorem recogniseName_reference {name : String}
    (h : Expression.IsColumnName name) (previous : Option Char)
    (rest : List Char) :
    recogniseName lookup? previous ('%' :: (name.toList ++ '.' :: rest)) =
      .pass := by
  simp only [recogniseName, endsName_dropWhile h.identifier, Bool.and_false]
  rfl

theorem scans_names {e : Expression} (h : e.Ordered) :
    Scans (recogniseName lookup?) e.chars [] := by
  refine Expression.scans_nothing (fun _ _ => recogniseName_eq_pass)
    (apart_percent []) fun s hs => ?_
  cases h.of_mem_parts hs with
  | literal hplain =>
      left
      exact Scans.of_silent (fun _ _ => recogniseName_eq_pass)
        (apart_percent [])
        fun rest _ => Text.silent_of_first (hplain.not_mem (by decide))
  | @column name part hname =>
      left
      intro previous next rest _ hrest
      change finds _ previous 0
        ('%' :: (name.toList ++ '.' :: part.name.toList ++ rest)) = _
      rw [finds, List.append_assoc, List.cons_append,
        recogniseName_reference hname]
      change finds _ (some '%') 0
        (name.toList ++ '.' :: (part.name.toList ++ rest)) = _
      rw [← List.cons_append, ← List.append_assoc,
        Text.finds_of_silent (fun _ _ => recogniseName_eq_pass)
          (Text.silent_of_first (hname.percent_not_mem part)),
        finds_of_closes (fun _ _ => recogniseName_eq_pass)
          (apart_percent []) hrest _ next]
      rfl
  | call =>
      right
      exact silentName_percent _ _ _

def asReference : Expression → Option (String × Cell.Part)
  | .column name part => some (name, part)
  | _ => none

def referenceFound (reference : String × Cell.Part) :
    (String × Cell.Part) × List Char :=
  (reference, referenceChars reference.1 reference.2)

theorem recogniseColumn_reference {name : String}
    (h : Expression.IsColumnName name) (part : Cell.Part)
    (previous : Option Char) (rest : List Char) :
    recogniseColumn previous (referenceChars name part ++ rest) =
      .found (name, part) (referenceChars name part).length := by
  have hname : (name.toList ++ '.' :: (part.name.toList ++ rest)).takeWhile
      Text.isIdentifierChar = name.toList := by
    rw [List.takeWhile_append_of_pos h.identifier,
      List.takeWhile_cons_of_neg (by decide), List.append_nil]
  have hafter : (name.toList ++ '.' :: (part.name.toList ++ rest)).dropWhile
      Text.isIdentifierChar = '.' :: (part.name.toList ++ rest) := by
    rw [List.dropWhile_append_of_pos h.identifier,
      List.dropWhile_cons_of_neg (by decide)]
  rw [referenceChars_eq, List.cons_append, List.append_assoc, List.cons_append]
  simp only [recogniseColumn, hname, hafter, h.1, isPrefixOf_part, if_true,
    String.ofList_toList]
  congr 1
  simp only [List.length_cons, List.length_append, String.length_toList]
  omega

theorem scans_references {e : Expression} (h : e.Ordered) :
    Scans recogniseColumn e.chars
      ((e.parts.filterMap asReference).map referenceFound) := by
  rw [List.map_filterMap]
  refine Expression.scans_parts recogniseColumn
    (fun _ _ => recogniseColumn_eq_pass)
    (apart_percent []) (fun s => (asReference s).map referenceFound) fun s hs =>
      ?_
  cases h.of_mem_parts hs with
  | literal hplain =>
      left
      exact Scans.of_silent (fun _ _ => recogniseColumn_eq_pass)
        (apart_percent [])
        fun rest _ => Text.silent_of_first (hplain.not_mem (by decide))
  | @column name part hname =>
      left
      intro previous next rest _ hrest
      have hfound := recogniseColumn_reference hname part previous rest
      change finds _ previous 0 (referenceChars name part ++ rest) = _
      rw [Text.finds_found (by simp [referenceChars_eq]) hfound,
        finds_of_closes (fun _ _ => recogniseColumn_eq_pass)
          (apart_percent []) hrest _ next]
      rfl
  | call =>
      right
      exact ⟨rfl, silentName_percent _ _ _⟩

end Scanning

/-! ## Replacing references by values -/

section Replacing

open Expression

variable {name : String} {part : Cell.Part} (hname : IsColumnName name)

include hname

private theorem reference_of_isPrefix {name' : String} {part' : Cell.Part}
    {rest : List Char} (hname' : IsColumnName name')
    (h : referenceChars name part <+: referenceChars name' part' ++ rest) :
    name = name' ∧ part = part' := by
  rw [referenceChars_eq, referenceChars_eq, List.cons_append, List.append_assoc,
    List.cons_append] at h
  have hchars := (List.cons_prefix_cons.mp h).2
  have hpoint : name.toList ++ ['.'] <+:
      name'.toList ++ '.' :: (part'.name.toList ++ rest) := by
    refine List.IsPrefix.trans ?_ hchars
    rw [List.prefix_append_right_inj]
    exact ⟨part.name.toList, rfl⟩
  have hnames := eq_of_isPrefix hname.point_not_mem hname'.point_not_mem hpoint
  rw [hnames, List.prefix_append_right_inj] at hchars
  exact ⟨String.toList_inj.mp hnames,
    part_of_isPrefix (List.cons_prefix_cons.mp hchars).2⟩

private theorem eq_reference {s : Expression} (h : s.Ordered)
    (heq : s.chars = referenceChars name part) :
    s = .column name part := by
  cases h with
  | @literal text hplain =>
      have hmem : '%' ∈ (Expression.literal text).chars := by
        rw [heq]
        exact List.mem_cons_self
      exact absurd hmem (hplain.not_mem (by decide))
  | @column name' part' hname' =>
      have hshort : referenceChars name part <+:
          referenceChars name' part' ++ [] := by
        rw [List.append_nil, ← heq]
        exact List.prefix_refl _
      obtain ⟨rfl, rfl⟩ := reference_of_isPrefix hname hname' hshort
      rfl
  | @call f operands =>
      obtain ⟨c, cs, hcs⟩ := List.exists_cons_of_ne_nil f.isName.nonempty
      rw [chars_call, callChars, hcs, referenceChars_eq] at heq
      have hfirst : c = '%' := (List.cons.inj heq).1
      have hmem : '%' ∈ f.name.toList := by
        rw [hcs, hfirst]
        exact List.mem_cons_self
      exact absurd hmem (f.isName.not_mem (by decide))

private theorem rewrites_reference {s : Expression} (h : s.Ordered)
    (new : String) :
    Rewrites (referenceChars name part) new.toList s.chars
        (s.replace (referenceChars name part) new).chars ∨
      s.chars ≠ referenceChars name part ∧
        SilentName (referenceChars name part) s := by
  by_cases heq : s.chars = referenceChars name part
  · left
    rw [replace_of_eq heq, heq]
    intro rest _
    exact Text.replaceFrom_append_self (by simp [referenceChars_eq])
  · cases h with
    | literal hplain =>
        left
        rw [replace_literal heq, referenceChars_eq]
        exact Rewrites.of_silent fun rest _ =>
          Text.silent_of_first (hplain.not_mem (by decide))
    | @column name' part' hname' =>
        left
        rw [replace_column heq]
        refine Rewrites.of_silent fun rest _ => ⟨fun hstarts => ?_, ?_⟩
        · obtain ⟨rfl, rfl⟩ := reference_of_isPrefix hname hname' hstarts
          exact heq rfl
        · exact Text.silent_of_first (hname'.percent_not_mem part')
    | call =>
        right
        exact ⟨heq, silentName_percent _ _ _⟩

end Replacing

section Solving

variable {env : Environment} {row : Row}

structure Referring (env : Environment) (row : Row) (whole : Expression)
    (fragments : List Fragment) (e : Expression) : Prop where
  ordered : e.Ordered
  value : e.value env row = whole.value env row
  keys : ∀ fragment ∈ fragments, ∃ name part, Expression.IsColumnName name ∧
    Plain (columnValue row name part) ∧
      fragment.key = (.column name part, (Expression.column name part).text)
  covered : ∀ name part, e.Refers name part →
    ∃ fragment ∈ fragments, fragment.text.toList = referenceChars name part

theorem Referring.step {whole e : Expression} {fragment : Fragment}
    {fragments : List Fragment} {v : String}
    (h : Referring env row whole (fragment :: fragments) e)
    (hv : (fragmentValue env row fragment).result = .ok v) :
    Rewrites fragment.text.toList v.toList e.chars
        (e.replace fragment.text.toList v).chars ∧
      Referring env row whole fragments (e.replace fragment.text.toList v) := by
  obtain ⟨⟨name, part, hname, hplain, hkey⟩, hkeys⟩ :=
    List.forall_mem_cons.mp h.keys
  obtain ⟨hreference, htext⟩ := Prod.mk.inj hkey
  rw [fragmentValue, hreference] at hv
  have hvalue : columnValue row name part = v := Except.ok.inj hv
  have hchars : fragment.text.toList = referenceChars name part := by
    rw [htext]
    exact Expression.toList_text _
  rw [hchars]
  refine ⟨Expression.rewrites_replace (apart_percent _)
    fun s hs => rewrites_reference hname (h.ordered.of_mem_parts hs) v,
    h.ordered.replace (hvalue ▸ hplain), ?_, hkeys, ?_⟩
  · rw [← h.value]
    refine Expression.value_replace fun s hs heq => ?_
    rw [eq_reference hname (h.ordered.of_mem_parts hs) heq,
      Expression.value, hvalue]
  · intro name' part' hrefers
    obtain ⟨hrefers, hne⟩ := Expression.refers_of_replace hrefers
    obtain ⟨other, hmem, hother⟩ := h.covered name' part' hrefers
    rcases List.mem_cons.mp hmem with rfl | hmem
    · exact absurd (hother.symm.trans hchars) hne
    · exact ⟨other, hmem, hother⟩

private theorem keys_findColumns {e : Expression} (h : e.Ordered) :
    (findColumns e.text).map Fragment.key =
      (e.parts.filterMap asReference).map fun reference =>
        (.column reference.1 reference.2,
          (Expression.column reference.1 reference.2).text) := by
  have hfound := scans_references h none none [] opens_none closes_nil
  rw [List.append_nil, finds, List.append_nil, ← Text.map_scanFrom _ _ 0]
    at hfound
  have hmapped := congrArg
    (List.map fun found : (String × Cell.Part) × List Char =>
      (Reference.column found.1.1 found.1.2, String.ofList found.2)) hfound
  rw [List.map_map, List.map_map] at hmapped
  rw [findColumns, List.map_map, Expression.toList_text]
  exact hmapped

private theorem referring_findColumns {e : Expression} (h : e.Ordered)
    (hplain : ∀ name part, e.Refers name part →
      Plain (columnValue row name part)) :
    Referring env row e (findColumns e.text) e := by
  refine ⟨h, rfl, ?_, ?_⟩
  · intro fragment hmem
    have hkey := List.mem_map_of_mem (f := Fragment.key) hmem
    rw [keys_findColumns h, List.mem_map] at hkey
    obtain ⟨⟨name, part⟩, hreference, hkey⟩ := hkey
    obtain ⟨s, hs, hself⟩ := List.mem_filterMap.mp hreference
    cases s with
    | literal text => cases hself
    | call f operands => cases hself
    | column name part =>
        cases hself
        cases h.of_mem_parts hs with
        | column hname =>
            exact ⟨name, part, hname, hplain name part hs, hkey.symm⟩
  · intro name part hrefers
    have hkey :
        (Reference.column name part, (Expression.column name part).text) ∈
        (findColumns e.text).map Fragment.key := by
      rw [keys_findColumns h]
      exact List.mem_map.mpr
        ⟨(name, part), List.mem_filterMap.mpr ⟨_, hrefers, rfl⟩, rfl⟩
    obtain ⟨fragment, hmem, hfragment⟩ := List.mem_map.mp hkey
    refine ⟨fragment, hmem, ?_⟩
    rw [(Prod.mk.inj hfragment).2]
    exact Expression.toList_text _

theorem column_stage (env : Environment) {row : Row} {e : Expression}
    (h : e.Ordered) (hplain : ∀ name part, e.Refers name part →
      Plain (columnValue row name part))
    (traced : Bool) :
    ∃ e' : Expression,
        (Stage.columns.run env row traced e.text).result = .ok e'.text ∧
      Remaining Function.all e' ∧ e'.value env row = e.value env row := by
  have hreferring : Referring env row e (findColumns e.text) e :=
    referring_findColumns h hplain
  have hvalues : ∀ fragment ∈ findColumns e.text,
      ∃ v, (fragmentValue env row fragment).result = .ok v := by
    intro fragment hmem
    obtain ⟨name, part, -, -, hkey⟩ := hreferring.keys fragment hmem
    refine ⟨columnValue row name part, ?_⟩
    rw [fragmentValue, (Prod.mk.inj hkey).1]
    rfl
  obtain ⟨e', hresult, hend⟩ := substitute_run
    (fun _ _ _ _ hreferring hv => hreferring.step hv) hvalues hreferring
  refine ⟨e', ?_, ⟨hend.ordered, fun name part hrefers => ?_, fun g _ => ?_⟩,
    hend.value⟩
  · rw [Stage.result_run, Stage.fragments, Expression.toList_text]
    change (substitute (fragmentValue env row)
        (findColumns e.text) e.chars).result.map
      String.ofList = _
    rw [hresult]
    rfl
  · obtain ⟨fragment, hmem, -⟩ := hend.covered name part hrefers
    exact absurd hmem List.not_mem_nil
  · cases g <;> decide

end Solving

end ReportDesk.Formula
