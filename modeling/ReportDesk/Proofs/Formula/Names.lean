import ReportDesk.Proofs.Formula.Layout
import ReportDesk.Proofs.Formula.ReferenceStage
import ReportDesk.Proofs.Text.Sites

/-!
# Names behind a percent sign

A percent sign with a capital name is a constant, a percent sign with an
identifier, a point and a part is a reference to a column.  Both are found
wherever they stand, and nowhere both.
-/

namespace ReportDesk.Formula

open Text (Verdict byteLength)
open Expression (IsColumnName)

/-! ## What the recognisers find -/

/--
A longest run of capitals, digits and underscores.  It begins with a letter and
runs into neither a point nor an identifier.
-/
structure CapitalRun (run rest : List Char) : Prop where
  letter : run.head?.any Char.isUpper = true
  chars : ∀ c ∈ run, isCapitalIdentifierChar c = true
  longest : ∀ c, rest.head? = some c → isCapitalIdentifierChar c = false
  ends : ∀ c, rest.head? = some c → c ≠ '.' ∧ Text.isIdentifierChar c = false

private theorem isIdentifierChar_of_capital {c : Char}
    (h : isCapitalIdentifierChar c = true) :
    Text.isIdentifierChar c = true := by
  change (((c.isUpper || c.isLower) || c.isDigit) || c == '_') = true
  simp only [isCapitalIdentifierChar, Bool.or_eq_true] at h ⊢
  tauto

private theorem takeWhile_eq_of_head {p : Char → Bool} {run rest : List Char}
    (hrun : ∀ c ∈ run, p c = true)
    (hrest : ∀ c, rest.head? = some c → p c = false) :
    (run ++ rest).takeWhile p = run ∧ (run ++ rest).dropWhile p = rest := by
  rw [List.takeWhile_append_of_pos hrun, List.dropWhile_append_of_pos hrun]
  cases rest with
  | nil => simp
  | cons c rest => simp [hrest c rfl]

private theorem endsName_iff {rest : List Char} :
    endsName rest = true ↔
      ∀ c, rest.head? = some c → c ≠ '.' ∧ Text.isIdentifierChar c = false := by
  cases rest with
  | nil => simp [endsName]
  | cons c rest => simp [endsName]

theorem recogniseName_eq_found_iff {α : Type} {lookup? : String → Option α}
    {previous : Option Char} {cs : List Char} {value : α} {length : Nat} :
    recogniseName lookup? previous cs = .found value length ↔
      ∃ run rest, cs = '%' :: (run ++ rest) ∧ CapitalRun run rest ∧
        lookup? (String.ofList run) = some value ∧ length = run.length + 1 := by
  constructor
  · intro h
    unfold recogniseName at h
    split at h
    next rest =>
      simp only at h
      split at h
      next hrun =>
        rw [Bool.and_eq_true] at hrun
        split at h
        next found hknown =>
          obtain ⟨rfl, rfl⟩ := Verdict.found.inj h
          have hends := endsName_iff.mp hrun.2
          refine ⟨rest.takeWhile isCapitalIdentifierChar,
            rest.dropWhile
            isCapitalIdentifierChar, by rw [List.takeWhile_append_dropWhile],
            ⟨hrun.1, List.all_eq_true.mp List.all_takeWhile, fun c hc => ?_,
              hends⟩, hknown, rfl⟩
          by_contra hcapital
          rw [Bool.not_eq_false] at hcapital
          have hnot := (hends c hc).2
          rw [isIdentifierChar_of_capital hcapital] at hnot
          cases hnot
        · cases h
      · cases h
    · cases h
  · rintro ⟨run, rest, rfl, hrun, hknown, rfl⟩
    obtain ⟨htake, hdrop⟩ := takeWhile_eq_of_head hrun.chars hrun.longest
    simp only [recogniseName, htake, hdrop, hrun.letter,
      endsName_iff.mpr hrun.ends, hknown, Bool.and_self, if_true]

theorem recogniseColumn_eq_found_iff {previous : Option Char} {cs : List Char}
    {name : String} {part : Cell.Part} {length : Nat} :
    recogniseColumn previous cs = .found (name, part) length ↔
      ∃ rest, cs = referenceChars name part ++ rest ∧ IsColumnName name ∧
        length = (referenceChars name part).length := by
  constructor
  · intro h
    obtain ⟨chars, hchars, htake, -, hname⟩ := recogniseColumn_found h
    obtain rfl : name = String.ofList chars := hname
    have hcs : cs = referenceChars (String.ofList chars) part ++
        cs.drop length := by
      rw [referenceChars_eq, String.toList_ofList, ← htake,
        List.take_append_drop]
    have hstart : chars.head?.any Text.isIdentifierStart = true := by
      by_contra hstart
      rw [hcs, referenceChars_eq, String.toList_ofList, List.cons_append,
        List.append_assoc] at h
      have hname :
          (chars ++ ('.' :: part.name.toList ++ cs.drop length)).takeWhile
          Text.isIdentifierChar = chars :=
        (takeWhile_eq_of_head hchars (by simp; decide)).1
      simp only [recogniseColumn, hname, if_neg hstart] at h
      cases h
    have hcolumn : IsColumnName (String.ofList chars) := by
      refine ⟨?_, ?_⟩
      · rwa [String.toList_ofList]
      · rwa [String.toList_ofList, List.all_eq_true]
    refine ⟨cs.drop length, hcs, hcolumn, ?_⟩
    have hfound :=
      recogniseColumn_reference hcolumn part previous (cs.drop length)
    rw [← hcs, h] at hfound
    exact (Verdict.found.inj hfound).2
  · rintro ⟨rest, rfl, hname, rfl⟩
    exact recogniseColumn_reference hname part previous rest

/-! ## Every place is looked at -/

private theorem scan_recogniseName {α : Type} (lookup? : String → Option α)
    (text : List Char) :
    Text.scan (recogniseName lookup?) text =
      Text.sites (recogniseName lookup?) text := by
  refine Text.scan_eq_sites_of_first recogniseName_eq_pass ?_ ?_ text
  · intro previous cs n h
    unfold recogniseName at h
    simp only at h
    repeat' split at h
    all_goals cases h
  · intro previous c cs value n h hmem
    obtain ⟨run, rest, hcs, hrun, -, rfl⟩ := recogniseName_eq_found_iff.mp h
    obtain ⟨-, rfl⟩ := List.cons_eq_cons.mp hcs
    rw [Nat.add_sub_cancel, List.take_left] at hmem
    exact absurd (hrun.chars '%' hmem) (by decide)

theorem scan_recogniseColumn (text : List Char) :
    Text.scan recogniseColumn text = Text.sites recogniseColumn text := by
  refine Text.scan_eq_sites_of_first recogniseColumn_eq_pass ?_ ?_ text
  · intro previous cs n h
    unfold recogniseColumn at h
    simp only at h
    repeat' split at h
    all_goals cases h
  · intro previous c cs value n h hmem
    obtain ⟨name, part⟩ := value
    obtain ⟨rest, hcs, hname, rfl⟩ := recogniseColumn_eq_found_iff.mp h
    rw [referenceChars_eq, List.cons_append] at hcs
    obtain ⟨-, rfl⟩ := List.cons_eq_cons.mp hcs
    rw [referenceChars_eq, List.length_cons, Nat.add_sub_cancel, List.take_left]
      at hmem
    exact hname.percent_not_mem part hmem

/-! ## Exactly the names of the text -/

def Ahead (text : String) (p : Nat) (ahead : List Char) : Prop :=
  ∃ behind, text.toList = behind ++ ahead ∧ byteLength behind = p

theorem Ahead.unique {text : String} {p : Nat} {ahead ahead' : List Char}
    (h : Ahead text p ahead) (h' : Ahead text p ahead') : ahead = ahead' := by
  obtain ⟨behind, htext, rfl⟩ := h
  obtain ⟨behind', htext', hp⟩ := h'
  rw [← Text.dropBytes_byteLength behind ahead, ← htext, ← hp, htext',
    Text.dropBytes_byteLength]

private theorem mem_fragments_iff {α : Type}
    {recognise : Option Char → List Char → Verdict α}
    {reference : α → Reference} {text : String} {p : Nat} {f : Fragment} :
    f ∈ (Text.sites recognise text.toList).map
        (Fragment.ofOccurrence reference) ∧ f.start = p ↔
      ∃ behind c rest value length,
          text.toList = behind ++ c :: rest ∧ byteLength behind = p ∧
        recognise behind.getLast? (c :: rest) = .found value length ∧
        f = ⟨reference value, String.ofList ((c :: rest).take length), p⟩ := by
  rw [List.mem_map]
  constructor
  · rintro ⟨⟨o, ho, rfl⟩, rfl⟩
    obtain ⟨behind, c, rest, length, htext, hfound, hstart, hcovered⟩ :=
      Text.mem_sites.mp ho
    refine ⟨behind, c, rest, o.value, length, htext, hstart.symm, hfound, ?_⟩
    rw [Fragment.ofOccurrence, hcovered]
  · rintro ⟨behind, c, rest, value, length, htext, rfl, hfound, rfl⟩
    refine ⟨⟨⟨value, byteLength behind, (c :: rest).take length⟩, ?_, rfl⟩, rfl⟩
    exact Text.mem_sites.mpr ⟨behind, c, rest, length, htext, hfound, rfl, rfl⟩

theorem mem_findKeywords_iff {keywords : Keywords} {text : String} {p : Nat}
    {f : Fragment} :
    f ∈ findKeywords keywords text ∧ f.start = p ↔
      ∃ name rest, Ahead text p ('%' :: (name.toList ++ rest)) ∧
        CapitalRun name.toList rest ∧
        keywords.contains name = true ∧
          f = ⟨.keyword name, "%" ++ name, p⟩ := by
  rw [findKeywords, scan_recogniseName, mem_fragments_iff]
  constructor
  · rintro ⟨behind, c, rest, name, length, htext, hp, hfound, hf⟩
    obtain ⟨run, rest', hcs, hrun, hknown, rfl⟩ :=
      recogniseName_eq_found_iff.mp hfound
    rw [Option.ite_none_right_eq_some, Option.some.injEq] at hknown
    obtain ⟨hknown, rfl⟩ := hknown
    rw [hcs, List.take_succ_cons, List.take_left, String.ofList_cons] at hf
    rw [← String.toList_ofList (l := run)] at hcs hrun
    exact ⟨String.ofList run, rest', ⟨behind, by rw [htext, hcs], hp⟩, hrun,
      hknown, hf⟩
  · rintro ⟨name, rest, ⟨behind, htext, hp⟩, hrun, hknown, hf⟩
    refine ⟨behind, '%', name.toList ++ rest, name, name.toList.length + 1,
      htext, hp, ?_, ?_⟩
    · refine recogniseName_eq_found_iff.mpr
        ⟨name.toList, rest, rfl, hrun, ?_, rfl⟩
      rw [String.ofList_toList, if_pos hknown]
    · rw [hf, List.take_succ_cons, List.take_left, String.ofList_cons,
        String.ofList_toList]
      rfl

theorem mem_findColumns_iff {text : String} {p : Nat} {f : Fragment} :
    f ∈ findColumns text ∧ f.start = p ↔
      ∃ name part rest,
          Ahead text p (referenceChars name part ++ rest) ∧ IsColumnName name ∧
        f = ⟨.column name part,
          String.ofList (referenceChars name part), p⟩ := by
  rw [findColumns, scan_recogniseColumn, mem_fragments_iff]
  constructor
  · rintro ⟨behind, c, rest, ⟨name, part⟩, length, htext, hp, hfound, hf⟩
    obtain ⟨rest', hcs, hname, rfl⟩ := recogniseColumn_eq_found_iff.mp hfound
    rw [hcs, List.take_left] at hf
    exact ⟨name, part, rest', ⟨behind, by rw [htext, hcs], hp⟩, hname, hf⟩
  · rintro ⟨name, part, rest, ⟨behind, htext, hp⟩, hname, hf⟩
    refine ⟨behind, '%', name.toList ++ '.' :: part.name.toList ++ rest,
      (name, part), (referenceChars name part).length, htext, hp, ?_, ?_⟩
    · exact recogniseColumn_eq_found_iff.mpr ⟨rest, rfl, hname, rfl⟩
    · rw [hf, ← List.cons_append, ← referenceChars_eq, List.take_left]

/--
A constant is found exactly where its name stands by itself, a reference
exactly where it stands, and no place begins both.
-/
theorem percentNames_exact (keywords : Keywords) (text : String) (p : Nat) :
    (∀ f, f ∈ findKeywords keywords text ∧ f.start = p ↔
      ∃ name rest, Ahead text p ('%' :: (name.toList ++ rest)) ∧
        CapitalRun name.toList rest ∧
        keywords.contains name = true ∧ f = ⟨.keyword name, "%" ++ name, p⟩) ∧
    (∀ f, f ∈ findColumns text ∧ f.start = p ↔
      ∃ name part rest,
        Ahead text p ('%' :: (name.toList ++ '.' :: part.name.toList) ++ rest) ∧
        IsColumnName name ∧
          f = ⟨.column name part, "%" ++ name ++ "." ++ part.name, p⟩) ∧
    ¬ ((∃ f ∈ findKeywords keywords text, f.start = p) ∧
      ∃ f ∈ findColumns text, f.start = p) := by
  refine ⟨fun f => mem_findKeywords_iff, fun f => ?_, ?_⟩
  · have hwritten (name : String) (part : Cell.Part) :
        "%" ++ name ++ "." ++ part.name =
          String.ofList (referenceChars name part) := by
      apply String.toList_inj.mp
      simp [referenceChars_eq]
    simp only [hwritten]
    exact mem_findColumns_iff
  · rintro ⟨⟨f, hf⟩, g, hg⟩
    obtain ⟨name, rest, hahead, hrun, -, -⟩ := mem_findKeywords_iff.mp hf
    obtain ⟨column, part, rest', hahead', hcolumn, -⟩ :=
      mem_findColumns_iff.mp hg
    -- a point follows the identifier of a reference, so no constant stands
    -- there
    have hpass : recogniseName some none
        ('%' :: (column.toList ++ '.' :: (part.name.toList ++ rest'))) =
          .pass :=
      recogniseName_reference hcolumn none _
    have hfound : recogniseName some none ('%' :: (name.toList ++ rest)) = _ :=
      recogniseName_eq_found_iff.mpr ⟨name.toList, rest, rfl, hrun, rfl, rfl⟩
    have hsame := hahead.unique hahead'
    rw [referenceChars_eq, List.cons_append, List.append_assoc,
      List.cons_append] at hsame
    rw [hsame, hpass] at hfound
    cases hfound

example : (findColumns "%%a.code.%a.b%_1.labels").map Fragment.text =
    ["%a.code", "%_1.label"] := by
  decide +kernel

end ReportDesk.Formula
