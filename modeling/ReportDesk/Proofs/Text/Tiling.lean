import ReportDesk.Text.Scan

/-!
# Places that lie one after the other in a text

A place is a first byte and the characters from there on.  What a scan finds
lies in the text without overlaps, with gaps between the places.
-/

namespace ReportDesk.Text

variable {α : Type}

/--
The places lie one after the other in a text whose first byte is `offset`.
-/
inductive Tiles : Nat → List Char → List (Nat × List Char) → Prop where
  | done {offset : Nat} {cs : List Char} : Tiles offset cs []
  | next {offset : Nat} {gap covered rest : List Char}
      {places : List (Nat × List Char)}
      (hne : covered ≠ [])
      (hrest : Tiles
        (offset + byteLength gap + byteLength covered) rest places) :
      Tiles offset (gap ++ (covered ++ rest))
        ((offset + byteLength gap, covered) :: places)

theorem Tiles.append {offset : Nat} {gap cs : List Char}
    {places : List (Nat × List Char)}
    (h : Tiles (offset + byteLength gap) cs places) :
    Tiles offset (gap ++ cs) places := by
  cases h with
  | done => exact .done
  | @next _ gap' covered rest places hne hrest =>
      rw [← List.append_assoc, Nat.add_assoc, ← byteLength_append]
      apply Tiles.next hne
      rwa [byteLength_append, ← Nat.add_assoc]

def Occurrence.place (o : Occurrence α) : Nat × List Char :=
  (o.start, o.covered)

def Advances (recognise : Option Char → List Char → Verdict α) : Prop :=
  ∀ {before c cs value length},
    recognise before (c :: cs) = .found value length → 0 < length

variable {recognise : Option Char → List Char → Verdict α}

private theorem tiles_scanFrom (h : Advances recognise) (before : Option Char)
    (offset skip : Nat) (cs : List Char) :
    Tiles (offset + byteLength (cs.take skip)) (cs.drop skip)
      ((scanFrom recognise before offset skip cs).map Occurrence.place) := by
  -- the characters that are still skipped are no part of any place
  induction cs generalizing before offset skip with
  | nil =>
      cases skip <;> exact .done
  | cons c cs ih =>
      cases skip with
      | succ skip =>
          simpa [scanFrom, Nat.add_assoc]
          using ih (some c) (offset + c.utf8Size) skip
      | zero =>
          have hlater (length : Nat) : Tiles offset (c :: cs)
              ((scanFrom recognise (some c) (offset + c.utf8Size) length cs).map
                Occurrence.place) := by
            have htiles := ih (some c) (offset + c.utf8Size) length
            rw [Nat.add_assoc, ← byteLength_cons] at htiles
            simpa using htiles.append
          rw [List.take_zero, byteLength_nil, List.drop_zero, scanFrom]
          cases hverdict : recognise before (c :: cs) with
          | pass => exact hlater 0
          | skip length => exact hlater (length - 1)
          | found value length =>
              cases length with
              | zero => exact absurd (h hverdict) (Nat.lt_irrefl 0)
              | succ length =>
                  have hrest := ih (some c) (offset + c.utf8Size) length
                  rw [Nat.add_assoc, ← byteLength_cons] at hrest
                  have htiles : Tiles offset
                      ([] ++ (c :: cs.take length ++ cs.drop length))
                      ((offset + byteLength [], c :: cs.take length) :: _) :=
                    .next (List.cons_ne_nil _ _) hrest
                  simpa [Occurrence.place] using htiles

theorem tiles_scan (h : Advances recognise) (text : List Char) :
    Tiles 0 text ((scan recognise text).map Occurrence.place) :=
  tiles_scanFrom h none 0 0 text

theorem exists_of_mem_scanFrom {before : Option Char} {offset skip : Nat}
    {cs : List Char} {o : Occurrence α}
    (h : o ∈ scanFrom recognise before offset skip cs) :
    ∃ previous rest length, recognise previous rest = .found o.value length ∧
      o.covered = rest.take length := by
  induction cs generalizing before offset skip with
  | nil => cases skip <;> simp [scanFrom] at h
  | cons c cs ih =>
      cases skip with
      | succ skip => exact ih h
      | zero =>
          rw [scanFrom] at h
          split at h
          · exact ih h
          · exact ih h
          next value length hfound =>
            rcases List.mem_cons.mp h with rfl | h
            · exact ⟨before, c :: cs, length, hfound, rfl⟩
            · exact ih h

end ReportDesk.Text
