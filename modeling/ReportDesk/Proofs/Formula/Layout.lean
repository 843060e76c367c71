import Mathlib.Data.List.Infix
import ReportDesk.Proofs.Formula.Locality
import ReportDesk.Proofs.Text.Tiling

/-!
# The layout of the fragments of a stage

The fragments that a stage finds lie one after the other in the text, and each
of them can be read back from its own text.
-/

namespace ReportDesk.Formula

open Text (Advances Occurrence Tiles byteLength)

/-! ## What the recognisers take -/

theorem recogniseName_found {α : Type} {lookup? : String → Option α}
    {before : Option Char} {cs : List Char} {value : α} {length : Nat}
    (h : recogniseName lookup? before cs = .found value length) :
    ∃ name, cs.take length = '%' :: name ∧ length = name.length + 1 ∧
      lookup? (String.ofList name) = some value := by
  unfold recogniseName at h
  split at h
  next rest =>
    simp only at h
    split at h
    · split at h
      next found hlookup =>
        obtain ⟨rfl, rfl⟩ := Text.Verdict.found.inj h
        refine ⟨rest.takeWhile isCapitalIdentifierChar, ?_, rfl, hlookup⟩
        rw [List.take_succ_cons,
          ← List.prefix_iff_eq_take.mp
            (List.takeWhile_prefix isCapitalIdentifierChar)]
      · cases h
    · cases h
  · cases h

private theorem partAtStart?_some {cs : List Char} {part : Cell.Part}
    (h : partAtStart? cs = some part) :
    part.name.toList <+: cs := by
  unfold partAtStart? at h
  split at h
  next hcode =>
    cases h
    exact List.isPrefixOf_iff_prefix.mp hcode
  · split at h
    next hlabel =>
      cases h
      exact List.isPrefixOf_iff_prefix.mp hlabel
    · cases h

theorem recogniseColumn_found {before : Option Char} {cs : List Char}
    {value : String × Cell.Part} {length : Nat}
    (h : recogniseColumn before cs = .found value length) :
    ∃ name, (∀ c ∈ name, Text.isIdentifierChar c = true) ∧
      cs.take length = '%' :: (name ++ '.' :: value.2.name.toList) ∧
      0 < length ∧
      value.1 = String.ofList name := by
  unfold recogniseColumn at h
  split at h
  next rest =>
    simp only at h
    split at h
    · split at h
      next after hafter =>
        split at h
        next part hpart =>
          obtain ⟨rfl, rfl⟩ := Text.Verdict.found.inj h
          let name := rest.takeWhile Text.isIdentifierChar
          have hrest : rest = name ++ '.' :: after := by
            rw [← hafter, List.takeWhile_append_dropWhile]
          obtain ⟨beyond, rfl⟩ := partAtStart?_some hpart
          have hall : ∀ c ∈ name, Text.isIdentifierChar c = true :=
            List.all_eq_true.mp List.all_takeWhile
          refine ⟨name, hall, ?_, by omega, rfl⟩
          have hlength : name.length + 2 + part.name.length =
              ('%' :: (name ++ '.' :: part.name.toList)).length := by
            simp [String.length_toList]
            omega
          have hcs : '%' :: rest = '%' :: (name ++ '.' :: part.name.toList) ++
              beyond := by
            rw [hrest]
            simp
          rw [hlength, hcs, List.take_left]
        · cases h
      · cases h
    · cases h
  · cases h

theorem exists_closing {after : List Char} (h : after.contains ')' = true) :
    ∃ rest, after = after.takeWhile (· != ')') ++ ')' :: rest := by
  induction after with
  | nil => simp at h
  | cons c after ih =>
      by_cases hc : c = ')'
      · subst hc
        exact ⟨after, by simp⟩
      · have hafter : after.contains ')' = true := by simpa [Ne.symm hc] using h
        obtain ⟨rest, hrest⟩ := ih hafter
        refine ⟨rest, ?_⟩
        rw [List.takeWhile_cons_of_pos (by simpa using hc),
          List.cons_append, ← hrest]

theorem recogniseCall_found {name : String} {before : Option Char}
    {cs : List Char} {body : CallBody} {length : Nat}
    (h : recogniseCall name before cs = .found body length) :
    0 < length ∧ ∀ inside, body = .closed inside →
      cs.take length = name.toList ++ '(' :: (inside ++ [')']) := by
  unfold recogniseCall at h
  simp only at h
  split at h
  · cases h
  next after hafter =>
    rw [List.isPrefixOf?_eq_some_iff_append_eq] at hafter
    split at h
    · cases h
    · split at h
      next hcloses =>
        obtain ⟨rfl, rfl⟩ := Text.Verdict.found.inj h
        refine ⟨Nat.succ_pos _, ?_⟩
        rintro inside hinside
        obtain rfl := CallBody.closed.inj hinside
        obtain ⟨rest, hrest⟩ := exists_closing hcloses
        let call := name.toList ++ '(' :: (after.takeWhile (· != ')') ++ [')'])
        have hlength : (name.toList ++ ['(']).length +
            (after.takeWhile (· != ')')).length + 1 =
            call.length := by
          simp [call]
          omega
        have hcs : cs = call ++ rest := by
          rw [← hafter, hrest]
          simp [call]
        rw [hlength, hcs, List.take_left]
      · obtain ⟨rfl, rfl⟩ := Text.Verdict.found.inj h
        refine ⟨?_, ?_⟩
        · rw [← hafter, List.length_append, List.length_append,
            List.length_singleton]
          omega
        · rintro inside ⟨⟩

theorem advances_recogniseName {α : Type} (lookup? : String → Option α) :
    Advances (recogniseName lookup?) := by
  intro before c cs value length h
  obtain ⟨name, -, rfl, -⟩ := recogniseName_found h
  exact Nat.succ_pos _

private theorem advances_recogniseColumn : Advances recogniseColumn := by
  intro before c cs value length h
  obtain ⟨name, -, -, hpos, -⟩ := recogniseColumn_found h
  exact hpos

private theorem advances_recogniseCall (name : String) :
    Advances (recogniseCall name) :=
  fun h => (recogniseCall_found h).1

private theorem advances_recogniseComparison (comparator : Comparator) :
    Advances (recogniseComparison comparator) := by
  intro before c cs value length h
  have hsymbol : 0 < comparator.symbol.toList.length := by
    cases comparator <;> decide
  unfold recogniseComparison at h
  simp only at h
  split at h
  · obtain ⟨-, rfl⟩ := Text.Verdict.found.inj h
    omega
  · cases h

/-! ## Where the fragments lie -/

def Fragment.place (f : Fragment) : Nat × List Char :=
  (f.start, f.text.toList)

theorem tiles_occurrences {α : Type}
    {recognise : Option Char → List Char → Text.Verdict α}
    (h : Advances recognise) (reference : α → Reference) (text : List Char) :
    Tiles 0 text
      (((Text.scan recognise text).map (Fragment.ofOccurrence reference)).map
        Fragment.place) := by
  have hplace : Fragment.place ∘ Fragment.ofOccurrence reference =
      Occurrence.place := by
    funext o
    simp [Fragment.place, Fragment.ofOccurrence, Occurrence.place]
  rw [List.map_map, hplace]
  exact Text.tiles_scan h text

theorem tiles_findKeywords (keywords : Keywords) (text : String) :
    Tiles 0 text.toList ((findKeywords keywords text).map Fragment.place) :=
  tiles_occurrences (advances_recogniseName _) .keyword text.toList

theorem tiles_findRowKeywords (text : String) :
    Tiles 0 text.toList ((findRowKeywords text).map Fragment.place) :=
  tiles_occurrences (advances_recogniseName _) .rowKeyword text.toList

theorem tiles_findColumns (text : String) :
    Tiles 0 text.toList ((findColumns text).map Fragment.place) :=
  tiles_occurrences advances_recogniseColumn _ text.toList

theorem tiles_findComparisons (comparator : Comparator) (text : String) :
    Tiles 0 text.toList
      ((findComparisons comparator text).map Fragment.place) :=
  tiles_occurrences (advances_recogniseComparison comparator) _ text.toList

def ClosedCall.occurrence (call : ClosedCall) : Occurrence CallBody :=
  ⟨.closed call.body, call.start, call.text.toList⟩

theorem eq_of_closedCalls {os : List (Occurrence CallBody)}
    {calls : List ClosedCall} (h : closedCalls os = .ok calls) :
    os = calls.map ClosedCall.occurrence := by
  induction os generalizing calls with
  | nil =>
      cases h
      rfl
  | cons o rest ih =>
      obtain ⟨value, start, covered⟩ := o
      cases value with
      | unclosed => simp [closedCalls] at h
      | closed body =>
          cases hrest : closedCalls rest with
          | error error => simp [closedCalls, hrest, Except.map] at h
          | ok calls' =>
              obtain rfl : _ :: calls' =
                calls := by simpa [closedCalls, hrest, Except.map] using h
              simp [← ih hrest, ClosedCall.occurrence]

private theorem exists_closedCalls {name text : String}
    {make : ClosedCall → Except Error Fragment} {found : List Fragment}
    (h : (do (← findClosedCalls name text).mapM make) = Except.ok found) :
    ∃ calls, Text.scan (recogniseCall name) text.toList =
        calls.map ClosedCall.occurrence ∧
      List.Forall₂ (fun call f => make call = .ok f) calls found := by
  obtain ⟨calls, hcalls, hfound⟩ := bind_eq_ok_iff.mp h
  exact ⟨calls, eq_of_closedCalls hcalls, mapM_eq_ok_iff.mp hfound⟩

theorem tiles_calls {name text : String}
    {make : ClosedCall → Except Error Fragment}
    {found : List Fragment} (hmake : ∀ {call f}, make call = .ok f →
      f.place = call.occurrence.place)
    (h : (do (← findClosedCalls name text).mapM make) = Except.ok found) :
    Tiles 0 text.toList (found.map Fragment.place) := by
  obtain ⟨calls, hscan, hall⟩ := exists_closedCalls h
  have hplaces : found.map Fragment.place =
      (calls.map ClosedCall.occurrence).map Occurrence.place := by
    clear h hscan
    induction hall with
    | nil => rfl
    | cons hcall _ ih =>
        rw [List.map_cons, hmake hcall, ih, List.map_cons, List.map_cons]
  rw [hplaces, ← hscan]
  exact Text.tiles_scan (advances_recogniseCall name) text.toList

theorem tiles_findCalls {name text : String} {found : List Fragment}
    (h : findCalls name text = .ok found) :
    Tiles 0 text.toList (found.map Fragment.place) := by
  refine tiles_calls ?_ h
  intro call f hf
  unfold callFragment at hf
  split at hf
  · cases hf
  · cases hf
    rfl

theorem tiles_findRelations {text : String} {found : List Fragment}
    (h : findRelations text = .ok found) :
    Tiles 0 text.toList (found.map Fragment.place) := by
  refine tiles_calls ?_ h
  intro call f hf
  unfold relationFragment at hf
  split at hf
  · cases hf
    rfl
  · cases hf

theorem Stage.tiles_fragments {env : Environment} {text : String}
    {stage : Stage} {found : List Fragment} (hstage : stage ≠ .comparisons)
    (h : stage.fragments env text = .ok found) :
    Tiles 0 text.toList (found.map Fragment.place) := by
  cases stage with
  | keywords =>
      cases h
      exact tiles_findKeywords env.keywords text
  | rowKeywords =>
      cases h
      exact tiles_findRowKeywords text
  | columns =>
      cases h
      exact tiles_findColumns text
  | relations => exact tiles_findRelations h
  | comparisons => exact absurd rfl hstage
  | calls function => exact tiles_findCalls h

/-! ## Splicing -/

namespace Fragment

variable {render : Fragment → String} {offset : Nat} {cs : List Char}
  {f : Fragment} {fs : List Fragment}

theorem exists_of_tiles (h : Tiles offset cs ((f :: fs).map place)) :
    ∃ gap rest, cs = gap ++ (f.text.toList ++ rest) ∧
      f.start = offset + byteLength gap ∧
      f.text.toList ≠ [] ∧ Tiles f.stop rest (fs.map place) := by
  generalize hplaces : (f :: fs).map place = places at h
  cases h with
  | done => cases hplaces
  | @next _ gap covered rest _ hne hrest =>
      obtain ⟨hplace, rfl⟩ := List.cons_eq_cons.mp hplaces
      obtain ⟨hstart, rfl⟩ := Prod.mk.inj hplace
      refine ⟨gap, rest, rfl, hstart, hne, ?_⟩
      rwa [stop, hstart]

theorem text_ne_nil (h : Tiles offset cs (fs.map place)) (hmem : f ∈ fs) :
    f.text.toList ≠ [] := by
  induction fs generalizing offset cs with
  | nil => cases hmem
  | cons first fs ih =>
      obtain ⟨_, rest, -, -, hne, hrest⟩ := exists_of_tiles h
      rcases List.mem_cons.mp hmem with rfl | hmem
      · exact hne
      · exact ih hrest hmem

theorem spliceFrom_cons {gap rest : List Char}
    (hstart : f.start = offset + byteLength gap) :
    spliceFrom render offset (gap ++ (f.text.toList ++ rest)) (f :: fs) =
      gap ++ ((render f).toList ++ spliceFrom render f.stop rest fs) := by
  have hgap : f.start - offset = byteLength gap := by omega
  have hcovered : f.stop - offset = byteLength (gap ++ f.text.toList) := by
    rw [stop, Text.byteLength_append]
    omega
  rw [spliceFrom, hgap, Text.takeBytes_byteLength, hcovered,
    ← List.append_assoc gap, Text.dropBytes_byteLength, List.append_assoc]

theorem spliceFrom_congr {render' : Fragment → String}
    (h : ∀ f ∈ fs, render f = render' f) :
    spliceFrom render offset cs fs = spliceFrom render' offset cs fs := by
  induction fs generalizing offset cs with
  | nil => rfl
  | cons f fs ih =>
      rw [List.forall_mem_cons] at h
      rw [spliceFrom, spliceFrom, h.1, ih h.2]

theorem spliceFrom_text (h : Tiles offset cs (fs.map place)) :
    spliceFrom text offset cs fs = cs := by
  induction fs generalizing offset cs with
  | nil => rfl
  | cons f fs ih =>
      obtain ⟨gap, rest, rfl, hstart, -, hrest⟩ := exists_of_tiles h
      rw [spliceFrom_cons hstart, ih hrest]

end Fragment

/-! ## What a fragment refers to is read from its text -/

def bodyOf (name : String) (call : List Char) : List Char :=
  (call.drop (name.length + 1)).dropLast

private theorem bodyOf_call (name : String) (body : List Char) :
    bodyOf name (name.toList ++ '(' :: (body ++ [')'])) = body := by
  have hopener : name.toList ++ '(' :: (body ++ [')']) =
      (name.toList ++ ['(']) ++ (body ++ [')']) := by simp
  rw [bodyOf, hopener, List.drop_left' (by simp [String.length_toList]),
    List.dropLast_concat]

private theorem exists_call_of_mem {name text : String}
    {make : ClosedCall → Except Error Fragment} {found : List Fragment}
    (h : (do (← findClosedCalls name text).mapM make) = Except.ok found)
    {f : Fragment} (hf : f ∈ found) :
    ∃ call, make call = .ok f ∧ call.body = bodyOf name call.text.toList := by
  obtain ⟨calls, hscan, hall⟩ := exists_closedCalls h
  obtain ⟨call, hmem, hcall⟩ := exists_of_mem_forall₂ hall hf
  refine ⟨call, hcall, ?_⟩
  have ho : call.occurrence ∈ Text.scan (recogniseCall name) text.toList := by
    rw [hscan]
    exact List.mem_map_of_mem hmem
  obtain ⟨previous, rest, length, hfound, hcovered⟩ :=
    Text.exists_of_mem_scanFrom ho
  have htext : call.text.toList = rest.take length := hcovered
  rw [htext, (recogniseCall_found hfound).2 call.body rfl, bodyOf_call]

theorem exists_found_of_mem {α : Type}
    {recognise : Option Char → List Char → Text.Verdict α}
    {reference : α → Reference} {text : List Char} {f : Fragment}
    (h : f ∈ (Text.scan recognise text).map (Fragment.ofOccurrence reference)) :
    ∃ value previous rest length,
        recognise previous rest = .found value length ∧
      f.reference = reference value ∧ f.text.toList = rest.take length := by
  obtain ⟨o, ho, rfl⟩ := List.mem_map.mp h
  obtain ⟨previous, rest, length, hfound, hcovered⟩ :=
    Text.exists_of_mem_scanFrom ho
  exact ⟨o.value, previous, rest, length, hfound,
    rfl, by simp [Fragment.ofOccurrence, hcovered]⟩

/-- In one stage two fragments with the same text refer to the same. -/
theorem Stage.exists_reading {env : Environment} {text : String} {stage : Stage}
    {found : List Fragment} (hstage : stage ≠ .comparisons)
    (h : stage.fragments env text = .ok found) :
    ∃ read : String → Reference, ∀ f ∈ found, f.reference = read f.text := by
  cases stage with
  | keywords =>
      cases h
      refine ⟨fun t => .keyword (String.ofList t.toList.tail), fun f hf => ?_⟩
      obtain ⟨value, previous, rest, length, hfound, href, htext⟩ :=
        exists_found_of_mem hf
      obtain ⟨name, htake, -, hknown⟩ := recogniseName_found hfound
      split at hknown
      · simp [href, htext, htake, Option.some.inj hknown]
      · cases hknown
  | rowKeywords =>
      cases h
      refine ⟨fun t => .rowKeyword
        ((RowKeyword.ofName? (String.ofList t.toList.tail)).getD .rowId),
          fun f hf => ?_⟩
      obtain ⟨value, previous, rest, length, hfound, href, htext⟩ :=
        exists_found_of_mem hf
      obtain ⟨name, htake, -, hknown⟩ := recogniseName_found hfound
      simp [href, htext, htake, hknown]
  | columns =>
      cases h
      refine ⟨fun t => .column
        (String.ofList (t.toList.tail.takeWhile Text.isIdentifierChar))
        ((partAtStart?
          (t.toList.tail.dropWhile Text.isIdentifierChar).tail).getD .code),
        fun f hf => ?_⟩
      obtain ⟨value, previous, rest, length, hfound, href, htext⟩ :=
        exists_found_of_mem hf
      obtain ⟨name, hname, htake, -, hcolumn⟩ := recogniseColumn_found hfound
      have hpart : partAtStart? value.2.name.toList = some value.2 := by
        cases value.2 <;> decide
      have hpoint : Text.isIdentifierChar '.' = false := by decide
      simp [href, htext, htake, hcolumn, hpart,
        List.takeWhile_append_of_pos hname,
        List.dropWhile_append_of_pos hname, hpoint]
  | relations =>
      refine ⟨fun t =>
        (relationOf? (bodyOf relationName t.toList)).getD (.keyword ""),
        fun f hf => ?_⟩
      obtain ⟨call, hcall, hbody⟩ := exists_call_of_mem h hf
      unfold relationFragment at hcall
      split at hcall
      next reference hreference =>
        cases hcall
        simp [← hbody, hreference]
      · cases hcall
  | comparisons => exact absurd rfl hstage
  | calls function =>
      refine ⟨fun t =>
        .call function.name (operandsOf (bodyOf function.name t.toList)),
        fun f hf => ?_⟩
      obtain ⟨call, hcall, hbody⟩ := exists_call_of_mem h hf
      unfold callFragment at hcall
      split at hcall
      · cases hcall
      · cases hcall
        simp [← hbody]

end ReportDesk.Formula
