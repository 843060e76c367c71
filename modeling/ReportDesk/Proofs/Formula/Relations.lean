import ReportDesk.Proofs.Formula.CallSearch
import ReportDesk.Proofs.Text.Trim

/-!
# Which relations are found

The search for relations succeeds exactly when every opening of one has a body
that names a parent and a field.  A relation is read back from its text, also
when the name of the field holds points.
-/

namespace ReportDesk.Formula

/-! ## Fields and parts -/

inductive FieldText : List Char → String → Cell.Part → Prop where
  | ofPart (field : String) (part : Cell.Part) :
      FieldText (field.toList ++ '.' :: part.name.toList) field part
  | whole (field : String)
      (hnone : ∀ part : Cell.Part, ¬ '.' :: part.name.toList <:+ field.toList) :
      FieldText field.toList field .code

private theorem point_not_mem_name (part : Cell.Part) :
    '.' ∉ part.name.toList := by
  cases part <;> decide

private theorem part_ofName?_name (part : Cell.Part) :
    Cell.Part.ofName? part.name = some part := by
  cases part <;> decide

private theorem name_of_ofName? {name : String} {part : Cell.Part}
    (h : Cell.Part.ofName? name = some part) : name = part.name := by
  unfold Cell.Part.ofName? at h
  split at h
  next hname =>
    cases h
    exact hname
  · split at h
    next hname =>
      cases h
      exact hname
    · cases h

private theorem splitLastPoint?_append {before after : List Char}
    (h : '.' ∉ after) :
    splitLastPoint? (before ++ '.' :: after) = some (before, after) := by
  have hreverse : (before ++ '.' :: after).reverse =
      after.reverse ++ '.' :: before.reverse := by
    simp
  have hafter : ∀ c ∈ after.reverse, (c != '.') = true :=
    bne_of_not_mem (by simpa using h)
  simp only [splitLastPoint?, hreverse, List.takeWhile_append_of_pos hafter,
    List.dropWhile_append_of_pos hafter]
  simp

private theorem splitLastPoint?_of_not_mem {cs : List Char} (h : '.' ∉ cs) :
    splitLastPoint? cs = none := by
  have hdrop : cs.reverse.dropWhile (· != '.') = [] :=
    List.dropWhile_eq_nil_iff.mpr (bne_of_not_mem (by simpa using h))
  simp only [splitLastPoint?, hdrop]

private theorem exists_last_point {cs : List Char} (h : '.' ∈ cs) :
    ∃ before after, cs = before ++ '.' :: after ∧ '.' ∉ after := by
  obtain ⟨after, before, hcs, hnot⟩ :=
    List.eq_append_cons_of_mem (List.mem_reverse.mpr h)
  refine ⟨before.reverse, after.reverse, ?_, by simpa using hnot⟩
  simpa using congrArg List.reverse hcs

private theorem fieldAndPart_of_fieldText {cs : List Char} {field : String}
    {part : Cell.Part}
    (h : FieldText cs field part) : fieldAndPart cs = (field, part) := by
  cases h with
  | ofPart =>
      simp [fieldAndPart, splitLastPoint?_append (point_not_mem_name part),
        part_ofName?_name]
  | whole _ hnone =>
      by_cases hpoint : '.' ∈ field.toList
      · obtain ⟨before, after, hfield, hafter⟩ := exists_last_point hpoint
        cases hname : Cell.Part.ofName? (String.ofList after) with
        | none =>
            rw [fieldAndPart, hfield, splitLastPoint?_append hafter]
            simp [hname, ← hfield]
        | some part =>
            have hsuffix : '.' :: part.name.toList <:+ field.toList := by
              rw [hfield, ← name_of_ofName? hname, String.toList_ofList]
              exact List.suffix_append _ _
            exact absurd hsuffix (hnone part)
      · simp [fieldAndPart, splitLastPoint?_of_not_mem hpoint]

theorem fieldAndPart_iff {cs : List Char} {field : String} {part : Cell.Part} :
    fieldAndPart cs = (field, part) ↔ FieldText cs field part := by
  refine ⟨fun h => ?_, fieldAndPart_of_fieldText⟩
  have hread : ∃ field part, FieldText cs field part := by
    by_cases hends : ∃ part : Cell.Part, '.' :: part.name.toList <:+ cs
    · obtain ⟨part, before, rfl⟩ := hends
      have htext := FieldText.ofPart (String.ofList before) part
      rw [String.toList_ofList] at htext
      exact ⟨_, _, htext⟩
    · have htext := FieldText.whole (String.ofList cs)
        (by rw [String.toList_ofList]; exact fun part hpart =>
              hends ⟨part, hpart⟩)
      rw [String.toList_ofList] at htext
      exact ⟨_, _, htext⟩
  obtain ⟨field', part', htext⟩ := hread
  rw [fieldAndPart_of_fieldText htext] at h
  obtain ⟨rfl, rfl⟩ := Prod.mk.inj h
  exact htext

/-! ## Bodies of relations -/

/--
The body names a parent and a field.  One comma parts them, white space around
them does not count, and neither may be missing.
-/
structure NamesField (body : List Char) (parent field : String)
    (part : Cell.Part) : Prop where
  plain : '(' ∉ body
  comma : ∃ before after,
      body = before ++ ',' :: after ∧ ',' ∉ before ∧ ',' ∉ after ∧
    Text.trimChars before = parent.toList ∧
    FieldText (Text.trimChars after) field part
  parent_ne : parent ≠ ""
  field_ne : field ≠ ""

theorem splitAt_eq_pair_iff {cs before after : List Char} :
    Text.splitAt ',' cs = [before, after] ↔
      cs = before ++ ',' :: after ∧ ',' ∉ before ∧ ',' ∉ after := by
  constructor
  · intro h
    have hjoin := Text.joinWith_splitAt ',' cs
    have hpieces (piece : List Char) (hmem : piece ∈ [before, after]) :
        ',' ∉ piece :=
      separator_not_mem_of_mem_splitAt (h ▸ hmem)
    rw [h] at hjoin
    refine ⟨by rw [← hjoin]; simp [Text.joinWith], hpieces _ ?_, hpieces _ ?_⟩
    · simp
    · simp
  · rintro ⟨rfl, hbefore, hafter⟩
    rw [splitAt_append hbefore, splitAt_of_not_mem hafter]

theorem relationOf?_eq_some_iff {body : List Char} {reference : Reference} :
    relationOf? body = some reference ↔
      ∃ parent field part, NamesField body parent field part ∧
        reference = .relation parent field part := by
  constructor
  · intro h
    unfold relationOf? at h
    split at h
    · cases h
    next hplain =>
      split at h
      next before after hpieces =>
        simp only at h
        split at h
        · cases h
        next hne =>
          rw [Bool.or_eq_true, not_or] at hne
          obtain ⟨hcomma, hbefore, hafter⟩ := splitAt_eq_pair_iff.mp hpieces
          refine ⟨String.ofList (Text.trimChars before),
            (fieldAndPart (Text.trimChars after)).1,
            (fieldAndPart (Text.trimChars after)).2,
            ⟨by simpa using hplain,
              ⟨before, after, hcomma, hbefore, hafter,
                String.toList_ofList.symm, fieldAndPart_iff.mp rfl⟩, ?_, ?_⟩,
                (Option.some.inj h).symm⟩
          · simpa using hne.1
          · simpa using hne.2
      · cases h
  · rintro ⟨parent, field, part,
      ⟨hplain, ⟨before, after, hbody, hbefore, hafter, hparent, hfield⟩,
      hparentne, hfieldne⟩, rfl⟩
    have hpieces := splitAt_eq_pair_iff.mpr ⟨hbody, hbefore, hafter⟩
    have hread := fieldAndPart_iff.mpr hfield
    simp [relationOf?, hplain, hpieces, hread, hparent, hparentne, hfieldne]

/-! ## Searching -/

theorem reads_relationFragment :
    Reads relationFragment fun body => (relationOf? body).isSome where
  accepted := by
    intro call h
    obtain ⟨reference, hreference⟩ := Option.isSome_iff_exists.mp h
    exact ⟨⟨reference, call.text,
      call.start⟩, by rw [relationFragment, hreference]⟩
  refused := by
    intro call h
    rw [Option.isSome_eq_false_iff, Option.isNone_iff_eq_none] at h
    exact ⟨.malformedRelation call.text, by rw [relationFragment, h]⟩
  nested := by
    intro body h
    simp [relationOf?, h]

theorem relationFragment_eq_ok_iff {call : ClosedCall} {f : Fragment} :
    relationFragment call = .ok f ↔
      ∃ parent field part, NamesField call.body parent field part ∧
        f = ⟨.relation parent field part, call.text, call.start⟩ := by
  unfold relationFragment
  constructor
  · intro h
    split at h
    next reference hreference =>
      obtain ⟨parent, field, part, hnames, rfl⟩ :=
        relationOf?_eq_some_iff.mp hreference
      exact ⟨parent, field, part, hnames, (Except.ok.inj h).symm⟩
    · cases h
  · rintro ⟨parent, field, part, hnames, rfl⟩
    rw [relationOf?_eq_some_iff.mpr ⟨parent, field, part, hnames, rfl⟩]

def Opening.Relates {text : String} (p : Opening relationName text) : Prop :=
  ¬ p.Unclosed ∧ ∃ parent field part, NamesField p.body parent field part

structure Opening.IsRelation {text : String} (p : Opening relationName text)
    (f : Fragment) : Prop where
  start : f.start = p.start
  text : f.text = p.toClose
  reference : ∃ parent field part, NamesField p.body parent field part ∧
    f.reference = .relation parent field part

section Searching

variable {text : String}

private theorem isSome_relationOf?_body {p : Opening relationName text} :
    (relationOf? p.body).isSome = true ↔
      ∃ parent field part, NamesField p.body parent field part := by
  rw [Option.isSome_iff_exists]
  constructor
  · rintro ⟨reference, h⟩
    obtain ⟨parent, field, part, hnames, -⟩ := relationOf?_eq_some_iff.mp h
    exact ⟨parent, field, part, hnames⟩
  · rintro ⟨parent, field, part, hnames⟩
    exact ⟨_, relationOf?_eq_some_iff.mpr ⟨parent, field, part, hnames, rfl⟩⟩

theorem findRelations_of_relates
    (h : ∀ p : Opening relationName text, p.Relates) :
    ∃ found, findRelations text = .ok found ∧
      ∀ f, f ∈ found ↔ ∃ p : Opening relationName text, p.IsRelation f := by
  obtain ⟨found, hfound, hmem⟩ := search_of_accepted isName_relation.identifier
    reads_relationFragment (fun p => (h p).1) fun p =>
      isSome_relationOf?_body.mpr (h p).2
  refine ⟨found, hfound, fun f => (hmem f).trans (exists_congr fun p => ?_)⟩
  rw [relationFragment_eq_ok_iff]
  constructor
  · rintro ⟨parent, field, part, hnames, rfl⟩
    exact ⟨rfl, rfl, parent, field, part, hnames, rfl⟩
  · rintro ⟨hstart, htext, parent, field, part, hnames, hreference⟩
    refine ⟨parent, field, part, hnames, ?_⟩
    obtain ⟨reference, text', start⟩ := f
    simp only at hstart htext hreference
    rw [hstart, htext, hreference]
    rfl

theorem relates_of_findRelations {found : List Fragment}
    (h : findRelations text = .ok found)
    (p : Opening relationName text) : p.Relates := by
  have hclosed : ∀ p : Opening relationName text, ¬ p.Unclosed := by
    intro p hp
    obtain ⟨q, -, hcalls⟩ :=
      findClosedCalls_of_unclosed isName_relation.identifier hp
    rw [findRelations, hcalls] at h
    cases h
  refine ⟨hclosed p, ?_⟩
  rw [← isSome_relationOf?_body]
  by_contra hrefused
  rw [Bool.not_eq_true] at hrefused
  obtain ⟨q, -, e, -, hsearch⟩ := search_of_refused isName_relation.identifier
    reads_relationFragment hclosed hrefused
  rw [findRelations, hsearch] at h
  cases h

end Searching

/-! ## Reading a relation back -/

structure Writable (name : String) : Prop where
  nonempty : name ≠ ""
  trimmed : Text.trim name = name
  plain : ∀ sign ∈ ['(', ')', ','], sign ∉ name.toList

instance (name : String) : Decidable (Writable name) :=
  decidable_of_iff (name ≠ "" ∧ Text.trim name = name ∧
      ['(', ')', ','].all (fun sign => !name.toList.contains sign) = true)
    ⟨fun ⟨hne, htrim, hplain⟩ => ⟨hne, htrim, by simpa using hplain⟩,
      fun ⟨hne, htrim, hplain⟩ => ⟨hne, htrim, by simpa using hplain⟩⟩

def relationText (parent field : String) (part : Cell.Part) : String :=
  "RELATION(" ++ parent ++ "," ++ field ++ "." ++ part.name ++ ")"

theorem Writable.trimChars {name : String} (h : Writable name) :
    Text.trimChars name.toList = name.toList := by
  rw [← Text.toList_trim, h.trimmed]

private theorem trimChars_field {field : String} (h : Writable field)
    (part : Cell.Part) :
    Text.trimChars (field.toList ++ '.' :: part.name.toList) =
      field.toList ++ '.' :: part.name.toList := by
  apply Text.trimChars_eq_self
  · intro c hc
    have hne : field.toList ≠ [] := by simpa using h.nonempty
    rw [List.head?_append_of_ne_nil _ hne] at hc
    exact Text.not_blank_of_head?_of_trimChars h.trimChars hc
  · intro c hc
    rw [List.getLast?_append] at hc
    cases part <;> (obtain rfl := Option.some.inj hc; decide)

theorem Writable.not_mem_field {field : String} (h : Writable field)
    (part : Cell.Part) {sign : Char} (hsign : sign ∈ ['(', ')', ',']) :
    sign ∉ field.toList ++ '.' :: part.name.toList := by
  rw [List.mem_append, not_or]
  refine ⟨h.plain sign hsign, ?_⟩
  simp only [List.mem_cons, List.not_mem_nil, or_false] at hsign
  rcases hsign with rfl | rfl | rfl
  all_goals cases part <;> decide

def relationBody (parent field : String) (part : Cell.Part) : List Char :=
  parent.toList ++ ',' :: (field.toList ++ '.' :: part.name.toList)

theorem toList_relationText (parent field : String) (part : Cell.Part) :
    (relationText parent field part).toList =
      opener relationName ++ (relationBody parent field part ++ [')']) := by
  have hopener : "RELATION(".toList = opener relationName := by decide
  simp [relationText, relationBody, ← hopener]

section Writing

variable {parent field : String} (hparent : Writable parent)
  (hfield : Writable field) (part : Cell.Part)

include hparent hfield

private theorem not_mem_relationBody {sign : Char}
    (hsign : sign ∈ ['(', ')', ','])
    (hcomma : sign ≠ ',') : sign ∉ relationBody parent field part := by
  rw [relationBody, List.mem_append, List.mem_cons, not_or, not_or]
  exact ⟨hparent.plain sign hsign, hcomma, hfield.not_mem_field part hsign⟩

private theorem namesField_relationBody :
    NamesField (relationBody parent field part) parent field part where
  plain := not_mem_relationBody hparent hfield part (by simp) (by decide)
  comma := by
    refine ⟨parent.toList, field.toList ++ '.' :: part.name.toList, rfl,
      hparent.plain ',' (by simp), hfield.not_mem_field part (by simp),
        hparent.trimChars, ?_⟩
    rw [trimChars_field hfield]
    exact .ofPart field part
  parent_ne := hparent.nonempty
  field_ne := hfield.nonempty

theorem findRelations_relationText :
    findRelations (relationText parent field part) =
      .ok
        [⟨.relation parent field part, relationText parent field part, 0⟩] := by
  have hfound : recogniseCall relationName none
      (relationText parent field part).toList =
      .found (.closed (relationBody parent field part))
        (relationText parent field part).toList.length := by
    rw [toList_relationText]
    exact recogniseCall_of_closed rfl
      (not_mem_relationBody hparent hfield part (by simp) (by decide))
  have hscan := Text.scan_eq_singleton (by simp [toList_relationText]) hfound
  have hfragment : relationFragment ⟨0, relationText parent field part,
      relationBody parent field part⟩ =
      .ok ⟨.relation parent field part, relationText parent field part, 0⟩ :=
    relationFragment_eq_ok_iff.mpr
      ⟨parent, field, part, namesField_relationBody hparent hfield part, rfl⟩
  rw [findRelations, findClosedCalls, hscan]
  simp only [closedCalls, String.ofList_toList]
  change List.mapM relationFragment [_] = _
  rw [List.mapM_cons, hfragment]
  rfl

end Writing

/--
The search succeeds exactly when every opening relates, and then finds one
fragment for each.  A relation that is written is read back.
-/
theorem findRelations_exact :
    (∀ text, (∃ found, findRelations text = .ok found) ↔
      ∀ p : Opening relationName text, p.Relates) ∧
    (∀ text found, findRelations text = .ok found →
      (∀ n, (∃ f ∈ found, f.start = n) ↔ ∃ p : Opening relationName text,
        p.start = n) ∧
      (∀ f ∈ found, ∃ p : Opening relationName text, p.IsRelation f) ∧
      found.Pairwise fun f g => f.stop ≤ g.start) ∧
    ∀ parent field part, Writable parent → Writable field →
      findRelations (relationText parent field part) =
        .ok
          [⟨.relation parent field part,
            relationText parent field part, 0⟩] := by
  refine ⟨fun text => ?_, fun text found h => ?_,
    fun parent field part hparent hfield => ?_⟩
  · constructor
    · rintro ⟨found, h⟩
      exact relates_of_findRelations h
    · intro h
      obtain ⟨found, hfound, -⟩ := findRelations_of_relates h
      exact ⟨found, hfound⟩
  · have hrelates := relates_of_findRelations h
    obtain ⟨found', hfound, hmem⟩ := findRelations_of_relates hrelates
    obtain rfl := Except.ok.inj (h.symm.trans hfound)
    refine ⟨fun n => ⟨?_, ?_⟩, fun f hf => (hmem f).mp hf,
      Fragment.pairwise_of_tiles (tiles_findRelations h)⟩
    · rintro ⟨f, hf, rfl⟩
      obtain ⟨p, hp⟩ := (hmem f).mp hf
      exact ⟨p, hp.start.symm⟩
    · rintro ⟨p, rfl⟩
      obtain ⟨-, parent, field, part, hnames⟩ := hrelates p
      refine ⟨⟨.relation parent field part, p.toClose, p.start⟩,
        (hmem _).mpr ⟨p, ?_⟩, rfl⟩
      exact ⟨rfl, rfl, parent, field, part, hnames, rfl⟩
  · exact findRelations_relationText hparent hfield part

/-- Only what stands behind the last point is a part. -/
theorem findRelations_exact_country :
    Writable "Country" ∧ Writable "name.of code" ∧
      findRelations "RELATION(Country,name.of code.label)" =
        .ok [⟨.relation "Country" "name.of code" .label,
          "RELATION(Country,name.of code.label)", 0⟩] := by
  have hparent : Writable "Country" := by decide
  have hfield : Writable "name.of code" := by decide
  have hread :=
    findRelations_exact.2.2 "Country" "name.of code" .label hparent hfield
  have htext : relationText "Country" "name.of code" .label =
      "RELATION(Country,name.of code.label)" := by decide
  rw [htext] at hread
  exact ⟨hparent, hfield, hread⟩

end ReportDesk.Formula
