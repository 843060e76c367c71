import ReportDesk.Proofs.Formula.Layout

/-!
# Where the fragments of a text stand

Whatever kind of fragment is looked for, the fragments found are not empty,
come in the order of the text, do not overlap and begin and end between two
characters.  The text can be put together again from them and the gaps.
-/

namespace ReportDesk.Formula

open Text (Tiles byteLength)

/-! ## The kinds of scans -/

inductive Finder where
  | keywords (known : Keywords)
  | rowKeywords
  | columns
  | relations
  | comparisons (comparator : Comparator)
  | calls (name : String)

def Finder.find (text : String) : Finder → Except Error (List Fragment)
  | .keywords known => .ok (findKeywords known text)
  | .rowKeywords => .ok (findRowKeywords text)
  | .columns => .ok (findColumns text)
  | .relations => findRelations text
  | .comparisons comparator => .ok (findComparisons comparator text)
  | .calls name => findCalls name text

theorem Finder.tiles_find {finder : Finder} {text : String}
    {found : List Fragment} (h : finder.find text = .ok found) :
    Tiles 0 text.toList (found.map Fragment.place) := by
  cases finder with
  | keywords known =>
      cases h
      exact tiles_findKeywords known text
  | rowKeywords =>
      cases h
      exact tiles_findRowKeywords text
  | columns =>
      cases h
      exact tiles_findColumns text
  | relations => exact tiles_findRelations h
  | comparisons comparator =>
      cases h
      exact tiles_findComparisons comparator text
  | calls name => exact tiles_findCalls h

/-! ## Bytes and boundaries -/

namespace Fragment

/--
The fragment is the bytes of the text between two boundaries of characters.
-/
structure Covers (f : Fragment) (text : String) : Prop where
  nonempty : f.start < f.stop
  start_isValid : (String.Pos.Raw.mk f.start).IsValid text
  stop_isValid : (String.Pos.Raw.mk f.stop).IsValid text
  bytes : text.toByteArray.extract f.start f.stop = f.text.toByteArray

variable {offset : Nat} {cs : List Char} {f : Fragment} {fs : List Fragment}

theorem stop_eq (f : Fragment) : f.stop = f.start + f.text.utf8ByteSize := by
  rw [stop, Text.byteLength_toList]

private theorem extract_append (before covered after : String) :
    (before ++ (covered ++ after)).toByteArray.extract before.utf8ByteSize
      (before.utf8ByteSize + covered.utf8ByteSize) = covered.toByteArray := by
  rw [← String.append_assoc, String.toByteArray_append,
    String.toByteArray_append, ← String.size_toByteArray,
    ← String.size_toByteArray, ByteArray.extract_append,
    ByteArray.extract_append_eq_right rfl rfl]
  simp

private theorem covers_append {before : String} (after : String)
    (hstart : f.start = before.utf8ByteSize)
    (hne : f.text ≠ "") : f.Covers (before ++ (f.text ++ after)) := by
  have hpos : 0 < f.text.utf8ByteSize :=
    Nat.pos_of_ne_zero (mt String.utf8ByteSize_eq_zero_iff.mp hne)
  refine ⟨?_, ?_, ?_, ?_⟩
  · rw [stop_eq]
    omega
  · apply String.Pos.Raw.isValid_iff_exists_append.mpr
    exact ⟨before, f.text ++ after, rfl, by simp [String.rawEndPos, hstart]⟩
  · apply String.Pos.Raw.isValid_iff_exists_append.mpr
    refine ⟨before ++ f.text, after, by rw [String.append_assoc], ?_⟩
    simp [String.rawEndPos, stop_eq, hstart, String.utf8ByteSize_append]
  · rw [stop_eq, hstart]
    exact extract_append before f.text after

theorem covers_of_tiles (before : List Char)
    (h : Tiles (byteLength before) cs (fs.map place))
    (hmem : f ∈ fs) : f.Covers (String.ofList (before ++ cs)) := by
  -- `before` is the text that lies behind the fragments still to come
  induction fs generalizing before cs with
  | nil => cases hmem
  | cons first fs ih =>
      obtain ⟨gap, rest, rfl, hstart, hne, hrest⟩ := exists_of_tiles h
      rcases List.mem_cons.mp hmem with rfl | hmem
      · have hoffset : f.start =
            (String.ofList (before ++ gap)).utf8ByteSize := by
          rw [hstart, ← Text.byteLength_ofList, Text.byteLength_append]
        have hcovers :=
          covers_append (String.ofList rest) hoffset (by simpa using hne)
        simpa [String.append_assoc] using hcovers
      · have hstop : first.stop =
            byteLength (before ++ gap ++ first.text.toList) := by
          simp [stop, hstart, Nat.add_assoc]
        rw [hstop] at hrest
        simpa using ih _ hrest hmem

private theorem le_start_of_tiles (h : Tiles offset cs (fs.map place))
    (hmem : f ∈ fs) :
    offset ≤ f.start := by
  induction fs generalizing offset cs with
  | nil => cases hmem
  | cons first fs ih =>
      obtain ⟨gap, rest, rfl, hstart, -, hrest⟩ := exists_of_tiles h
      rcases List.mem_cons.mp hmem with rfl | hmem
      · omega
      · have := ih hrest hmem
        simp only [stop] at this
        omega

theorem pairwise_of_tiles (h : Tiles offset cs (fs.map place)) :
    fs.Pairwise fun f g => f.stop ≤ g.start := by
  induction fs generalizing offset cs with
  | nil => exact .nil
  | cons first fs ih =>
      obtain ⟨gap, rest, rfl, hstart, -, hrest⟩ := exists_of_tiles h
      exact .cons (fun later hmem => le_start_of_tiles hrest hmem) (ih hrest)

end Fragment

/-! ## What a scan finds -/

/--
What a scan that succeeds finds lies in the text in order, and gives it back.
-/
theorem Finder.find_covers {finder : Finder} {text : String}
    {found : List Fragment} (h : finder.find text = .ok found) :
    (∀ f ∈ found, f.Covers text) ∧
      (found.Pairwise fun f g => f.stop ≤ g.start) ∧
      Fragment.splice text Fragment.text found = text := by
  have htiles := tiles_find h
  refine ⟨?_, Fragment.pairwise_of_tiles htiles, ?_⟩
  · intro f hmem
    simpa using Fragment.covers_of_tiles [] htiles hmem
  · rw [Fragment.splice, Fragment.spliceFrom_text htiles, String.ofList_toList]

/--
Two calls behind a character of two bytes; the name inside `COLOR` is no call.
-/
theorem Finder.find_covers_or :
    Finder.find "é COLOR(x) OR(a,ß)OR()" (.calls "OR") =
        .ok [⟨.call "OR" ["a", "ß"], "OR(a,ß)", 12⟩,
          ⟨.call "OR" [], "OR()", 20⟩] ∧
      Fragment.Covers ⟨.call "OR" [], "OR()", 20⟩ "é COLOR(x) OR(a,ß)OR()" := by
  have hfind : Finder.find "é COLOR(x) OR(a,ß)OR()" (.calls "OR") =
      .ok [⟨.call "OR" ["a", "ß"], "OR(a,ß)", 12⟩,
        ⟨.call "OR" [], "OR()", 20⟩] := by
    decide +kernel
  exact ⟨hfind, (Finder.find_covers hfind).1 _ (by simp)⟩

end ReportDesk.Formula
