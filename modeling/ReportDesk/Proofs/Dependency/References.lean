import ReportDesk.Formula.Dependency
import ReportDesk.Proofs.Formula.Names

/-!
# The references that are counted and those that are read

The count of references looks for a column's name between a percent sign and a
point, the evaluation looks for any reference and then for its column.  Both
come to the same number for every column with an identifier for a name.
-/

namespace ReportDesk.Formula

open Expression (IsColumnName)

def Fragment.refersTo (column : String) (f : Fragment) : Bool :=
  match f.reference with
  | .column name _ => name == column
  | _ => false

/-! ## What the count looks for -/

private theorem recogniseReference_eq_pass {column : String}
    {previous : Option Char} {cs : List Char}
    (h : ¬ ['%'] <+: cs) : recogniseReference column previous cs = .pass := by
  unfold recogniseReference
  simp only
  split
  next after hafter =>
    rw [List.isPrefixOf?_eq_some_iff_append_eq] at hafter
    exact absurd ⟨column.toList ++ ['.'] ++ after, by rw [← hafter]; simp⟩ h
  · rfl

private theorem part_at_start_iff {after : List Char} :
    ("code".toList.isPrefixOf after || "label".toList.isPrefixOf after) = true ↔
      ∃ part : Cell.Part, part.name.toList <+: after := by
  rw [Bool.or_eq_true, List.isPrefixOf_iff_prefix, List.isPrefixOf_iff_prefix]
  constructor
  · rintro (h | h)
    · exact ⟨.code, h⟩
    · exact ⟨.label, h⟩
  · rintro ⟨part, h⟩
    cases part with
    | code => exact .inl h
    | label => exact .inr h

private theorem finds_recogniseReference_iff {column : String}
    {previous : Option Char} {cs : List Char} :
    (recogniseReference column previous cs).finds id = true ↔
      ∃ part rest, cs = referenceChars column part ++ rest := by
  constructor
  · intro h
    unfold recogniseReference at h
    simp only at h
    split at h
    next after hafter =>
      rw [List.isPrefixOf?_eq_some_iff_append_eq] at hafter
      obtain ⟨part, rest, rfl⟩ := part_at_start_iff.mp h
      refine ⟨part, rest, ?_⟩
      rw [← hafter, referenceChars_eq]
      simp
    · cases h
  · rintro ⟨part, rest, rfl⟩
    have hafter : ('%' :: column.toList ++ ['.']).isPrefixOf?
        (referenceChars column part ++ rest) =
        some (part.name.toList ++ rest) := by
      rw [List.isPrefixOf?_eq_some_iff_append_eq, referenceChars_eq]
      simp
    simp only [recogniseReference, hafter]
    exact part_at_start_iff.mpr ⟨part, List.prefix_append _ _⟩

private theorem scan_recogniseReference {column : String}
    (h : IsColumnName column) (text : List Char) :
    Text.scan (recogniseReference column) text =
      Text.sites (recogniseReference column) text := by
  refine Text.scan_eq_sites_of_first recogniseReference_eq_pass ?_ ?_ text
  · intro previous cs n hskip
    unfold recogniseReference at hskip
    simp only at hskip
    split at hskip
    all_goals cases hskip
  · intro previous c cs value n hfound hmem
    unfold recogniseReference at hfound
    simp only at hfound
    split at hfound
    next after hafter =>
      obtain ⟨-, rfl⟩ := Text.Verdict.found.inj hfound
      rw [List.isPrefixOf?_eq_some_iff_append_eq, List.cons_append,
        List.cons_append] at hafter
      obtain ⟨-, rfl⟩ := List.cons_eq_cons.mp hafter
      rw [List.cons_append, List.length_cons, Nat.add_sub_cancel,
        List.take_left, List.mem_append, List.mem_singleton] at hmem
      rcases hmem with hmem | hmem
      · exact h.not_mem (by decide) hmem
      · exact absurd hmem (by decide)
    · cases hfound

/-! ## What is read -/

private theorem finds_recogniseColumn_iff {column : String}
    (h : IsColumnName column) {previous : Option Char} {cs : List Char} :
    (recogniseColumn previous cs).finds (fun found => found.1 == column) =
        true ↔
      ∃ part rest, cs = referenceChars column part ++ rest := by
  rw [Text.Verdict.finds_eq_true_iff]
  constructor
  · rintro ⟨⟨name, part⟩, length, hfound, hname⟩
    obtain rfl : name = column := by simpa using hname
    obtain ⟨rest, hcs, -, -⟩ := recogniseColumn_eq_found_iff.mp hfound
    exact ⟨part, rest, hcs⟩
  · rintro ⟨part, rest, hcs⟩
    exact ⟨(column, part), _,
      recogniseColumn_eq_found_iff.mpr ⟨rest, hcs, h, rfl⟩, by simp⟩

/-- As many references to a column are counted as the evaluation finds. -/
theorem countReferences_eq_countP_findColumns {column : String}
    (h : IsColumnName column) (formula : String) :
    countReferences formula column =
      (findColumns formula).countP (Fragment.refersTo column) := by
  have hsame (previous : Option Char) (cs : List Char) :
      (recogniseReference column previous cs).finds id =
        (recogniseColumn previous cs).finds fun found => found.1 == column := by
    rw [Bool.eq_iff_iff, finds_recogniseReference_iff,
      finds_recogniseColumn_iff h]
  rw [countReferences, scan_recogniseReference h, findColumns,
    scan_recogniseColumn, List.countP_map]
  exact Text.countP_sites hsame formula.toList

/--
Doubled percent signs, a longer name, another column and a part that runs on.
-/
theorem countReferences_eq_countP_findColumns_a :
    IsColumnName "a" ∧
      countReferences "%%a.code %ab.code+%a.labels,%b.code%a.cod" "a" =
        (findColumns "%%a.code %ab.code+%a.labels,%b.code%a.cod").countP
          (Fragment.refersTo "a") ∧
      countReferences "%%a.code %ab.code+%a.labels,%b.code%a.cod" "a" = 2 :=
  ⟨by decide,
    countReferences_eq_countP_findColumns (by decide) _, by decide +kernel⟩

end ReportDesk.Formula
