import Mathlib.Data.List.Nodup
import Mathlib.Data.List.Perm.Subperm
import ReportDesk.Proofs.Dependency.Weight

/-!
# Counting finds the weight

Counts are faithful when every one of them is the weight of its column.
Counting keeps faithful counts faithful, and a count that succeeds is the
weight.  On a trail, which is a path whose columns all lead to the one being
counted, a column with a weight is counted, so that two faithful memories
give the same answer, be it a count or the path that closes a cycle.
-/

namespace ReportDesk.Formula

variable {schema : Schema} {header : String}

def Faithful (schema : Schema) (counts : Counts) : Prop :=
  ∀ column header count, counts.lookup (column, header) = some count →
    Weighs schema header column count

theorem faithful_nil (schema : Schema) : Faithful schema [] := by
  intro column header count h
  simp at h

theorem Faithful.cons {counts : Counts} {column : String} {count : Nat}
    (h : Faithful schema counts) (hcount : Weighs schema header column count) :
    Faithful schema (((column, header), count) :: counts) := by
  intro column' header' count' hlookup
  rw [List.lookup_cons] at hlookup
  split at hlookup
  next heq =>
      obtain ⟨rfl, rfl⟩ := Prod.mk.inj (eq_of_beq heq)
      cases hlookup
      exact hcount
  next => exact h column' header' count' hlookup

/-! ## Adding references -/

section References

variable {visit visit' : Counts → String → Except Error Nat × Counts}
variable {column formula : String} {columns : List Column}

private theorem addReferences_filter (total : Nat) (counts : Counts) :
    addReferences visit column formula columns total counts =
      addReferences visit column formula
        (columns.filter fun other =>
          ¬(other.id = column ∨ countReferences formula other.id = 0)) total
            counts := by
  induction columns generalizing total counts with
  | nil => rfl
  | cons other rest ih =>
      by_cases hpassed : other.id = column ∨
        countReferences formula other.id = 0
      · rw [List.filter_cons_of_neg (by rwa [decide_eq_true_eq, not_not]),
          addReferences]
        simp only [hpassed, if_true]
        exact ih total counts
      · rw [List.filter_cons_of_pos (by rwa [decide_eq_true_eq]), addReferences,
          addReferences]
        simp only [hpassed, if_false]
        rcases visit counts other.id with ⟨result, later⟩
        cases result with
        | error error => rfl
        | ok below => exact ih _ later

def SoundVisit (schema : Schema) (header : String)
    (visit : Counts → String → Except Error Nat × Counts) : Prop :=
  ∀ counts column, Faithful schema counts →
    Faithful schema (visit counts column).2 ∧
      ∀ n, (visit counts column).1 = .ok n → Weighs schema header column n

private theorem addReferences_sound (hvisit : SoundVisit schema header visit)
    (hcolumns : ∀ other ∈ columns,
      ¬(other.id = column ∨ countReferences formula other.id = 0))
    (total : Nat) {counts : Counts} (h : Faithful schema counts) :
    Faithful schema
        (addReferences visit column formula columns total counts).2 ∧
      ∀ n, (addReferences visit column formula columns total counts).1 = .ok n →
        (∀ other ∈ columns, ∃ m, Weighs schema header other.id m) ∧
          n = total + weightOver formula (weight schema header) columns := by
  induction columns generalizing total counts with
  | nil => exact ⟨h, fun n hn => by cases hn; simp [weightOver]⟩
  | cons other rest ih =>
      rw [List.forall_mem_cons] at hcolumns
      obtain ⟨hlater, hfound⟩ := hvisit counts other.id h
      rw [addReferences]
      simp only [hcolumns.1, if_false]
      rcases hv : visit counts other.id with ⟨result, later⟩
      rw [hv] at hlater hfound
      cases result with
      | error error => exact ⟨hlater, fun n hn => by cases hn⟩
      | ok below =>
          have hbelow := hfound below rfl
          obtain ⟨hrest, hsum⟩ := ih hcolumns.2
            (total + countReferences formula other.id + below) hlater
          refine ⟨hrest, fun n hn => ?_⟩
          obtain ⟨hweights, rfl⟩ := hsum n hn
          refine ⟨List.forall_mem_cons.mpr ⟨⟨below, hbelow⟩, hweights⟩, ?_⟩
          simp only [weightOver, List.map_cons, List.sum_cons, hbelow.weight_eq]
          omega

private theorem addReferences_complete (hvisit : SoundVisit schema header visit)
    (hcolumns : ∀ other ∈ columns,
      ¬(other.id = column ∨ countReferences formula other.id = 0))
    (hfinds : ∀ other ∈ columns, ∀ counts, Faithful schema counts →
      ∃ m, (visit counts other.id).1 = .ok m)
    (total : Nat) {counts : Counts} (h : Faithful schema counts) :
    ∃ n, (addReferences visit column formula columns total counts).1 =
      .ok n := by
  induction columns generalizing total counts with
  | nil => exact ⟨total, rfl⟩
  | cons other rest ih =>
      rw [List.forall_mem_cons] at hcolumns hfinds
      obtain ⟨hlater, -⟩ := hvisit counts other.id h
      obtain ⟨below, hbelow⟩ := hfinds.1 counts h
      rw [addReferences]
      simp only [hcolumns.1, if_false]
      rcases hv : visit counts other.id with ⟨result, later⟩
      rw [hv] at hlater hbelow
      subst hbelow
      exact ih hcolumns.2 hfinds.2 _ hlater

private theorem addReferences_congr (hvisit : SoundVisit schema header visit)
    (hvisit' : SoundVisit schema header visit')
    (hagree : ∀ other ∈ columns, ∀ known known', Faithful schema known →
      Faithful schema known' →
        (visit known other.id).1 = (visit' known' other.id).1)
    (total : Nat) {known known' : Counts} (h : Faithful schema known)
    (h' : Faithful schema known') :
    (addReferences visit column formula columns total known).1 =
      (addReferences visit' column formula columns total known').1 := by
  induction columns generalizing total known known' with
  | nil => rfl
  | cons other rest ih =>
      rw [List.forall_mem_cons] at hagree
      rw [addReferences, addReferences]
      split
      · exact ih hagree.2 total h h'
      · have hsame := hagree.1 known known' h h'
        obtain ⟨hlater, -⟩ := hvisit known other.id h
        obtain ⟨hlater', -⟩ := hvisit' known' other.id h'
        rcases hv : visit known other.id with ⟨result, later⟩
        rcases hv' : visit' known' other.id with ⟨result', later'⟩
        rw [hv] at hsame hlater
        rw [hv'] at hsame hlater'
        cases hsame
        cases result with
        | error error => rfl
        | ok below => exact ih hagree.2 _ hlater hlater'

end References

/-! ## Trails -/

/-- A path without repetition, each column of which leads to the one counted. -/
structure Trail (schema : Schema) (header : String) (path : List String)
    (column : String) : Prop where
  nodup : path.Nodup
  leads : ∀ passed ∈ path, Relation.TransGen (Needs schema header) passed column
  known : ∀ passed ∈ (path ++ [column]).tail,
    passed ∈ schema.columns.map Column.id

theorem Trail.start (schema : Schema) (header column : String) :
    Trail schema header [] column :=
  ⟨.nil, by simp, by simp⟩

theorem Trail.nodup_append {path : List String} {column : String}
    (h : Trail schema header path column) (hfresh : column ∉ path) :
    (path ++ [column]).Nodup := by
  refine List.nodup_append.mpr ⟨h.nodup, List.nodup_singleton column, ?_⟩
  intro passed hpassed last hlast heq
  rw [List.mem_singleton.mp hlast] at heq
  exact hfresh (heq ▸ hpassed)

theorem Trail.extend {path : List String} {column : String} {other : Column}
    (h : Trail schema header path column) (hfresh : column ∉ path)
    (hother : other ∈ needed schema header column) :
    Trail schema header (path ++ [column]) other.id := by
  have hneeds : Needs schema header column other.id := ⟨other, hother, rfl⟩
  refine ⟨h.nodup_append hfresh, ?_, ?_⟩
  · intro passed hpassed
    rcases List.mem_append.mp hpassed with hpassed | hpassed
    · exact (h.leads passed hpassed).tail hneeds
    · rw [List.mem_singleton.mp hpassed]
      exact .single hneeds
  · intro passed hpassed
    rw [List.tail_append_of_ne_nil (by simp)] at hpassed
    rcases List.mem_append.mp hpassed with hpassed | hpassed
    · exact h.known passed hpassed
    · rw [List.mem_singleton.mp hpassed]
      exact List.mem_map_of_mem (List.mem_filter.mp hother).1

theorem Trail.fresh {path : List String} {column : String} {n : Nat}
    (h : Trail schema header path column)
    (hweighs : Weighs schema header column n) :
    column ∉ path :=
  fun hpassed => hweighs.not_leads_self (h.leads column hpassed)

theorem Trail.length_le {path : List String} {column : String}
    (h : Trail schema header path column) (hfresh : column ∉ path) :
    path.length ≤ schema.columns.length := by
  have hnodup := (h.nodup_append hfresh).sublist (List.tail_sublist _)
  have hle := (List.subperm_of_subset hnodup h.known).length_le
  simpa using hle

theorem Trail.closed {path : List String} {column : String}
    (h : Trail schema header path column)
    (hlength : schema.columns.length < path.length) :
    column ∈ path := by
  by_contra hfresh
  have := h.length_le hfresh
  omega

/-! ## Counts of columns -/

theorem countFrom_open (depth : Nat) {path : List String} {column : String}
    {counts : Counts} (hunknown : counts.lookup (column, header) = none)
    (hfresh : column ∉ path) :
    (countFrom schema header (depth + 1) path counts column).1 =
      (addReferences (countFrom schema header depth (path ++ [column])) column
        (schema.formula column header)
          (needed schema header column) 0 counts).1 := by
  rw [countFrom, hunknown, addReferences_filter, ← needed]
  simp only [List.contains_eq_mem, hfresh, decide_false,
    Bool.false_eq_true, if_false]
  rcases addReferences (countFrom schema header depth (path ++ [column])) column
    (schema.formula column header) (needed schema header column) 0 counts
      with ⟨result, later⟩
  cases result <;> rfl

private theorem not_passed_of_mem_needed (schema : Schema)
    (header column : String) :
    ∀ other ∈ needed schema header column, ¬(other.id = column ∨
      countReferences (schema.formula column header) other.id = 0) := by
  intro other h
  simpa using (List.mem_filter.mp h).2

theorem countFrom_sound (depth : Nat) (path : List String) :
    SoundVisit schema header (countFrom schema header depth path) := by
  induction depth generalizing path with
  | zero =>
      intro counts column h
      rw [countFrom]
      split
      next count hlookup =>
          exact ⟨h,
            fun n hn => by cases hn; exact h column header count hlookup⟩
      next => split <;> exact ⟨h, fun n hn => by cases hn⟩
  | succ depth ih =>
      intro counts column h
      rw [countFrom]
      split
      next count hlookup =>
          exact ⟨h,
            fun n hn => by cases hn; exact h column header count hlookup⟩
      next =>
        split
        · exact ⟨h, fun n hn => by cases hn⟩
        · have hsound := addReferences_sound (ih (path ++ [column]))
            (not_passed_of_mem_needed schema header column) 0 h
          rw [addReferences_filter, ← needed]
          split
          next total later hadd =>
            rw [hadd] at hsound
            obtain ⟨hlater, hsum⟩ := hsound
            obtain ⟨hweights, htotal⟩ := hsum total rfl
            have hcount : Weighs schema header column total := by
              rw [htotal, Nat.zero_add]
              exact weighs_of_needed hweights
            exact ⟨hlater.cons hcount, fun n hn => by cases hn; exact hcount⟩
          next error later hadd =>
            rw [hadd] at hsound
            exact ⟨hsound.1, fun n hn => by cases hn⟩

/-- The bound on the depth is never what stops a count on a trail. -/
theorem countFrom_complete (depth : Nat) {path : List String}
    {column : String} {n : Nat} (hweighs : Weighs schema header column n)
    (htrail : Trail schema header path column)
    (hdepth : schema.columns.length + 1 ≤ depth + path.length)
    {counts : Counts} (h : Faithful schema counts) :
    (countFrom schema header depth path counts column).1 = .ok n := by
  induction depth generalizing path column n counts with
  | zero =>
      -- a trail of fresh columns is no longer than the list of all columns
      have := htrail.length_le (htrail.fresh hweighs)
      omega
  | succ depth ih =>
      cases hlookup : counts.lookup (column, header) with
      | some count =>
          have := hweighs.unique (h column header count hlookup)
          simp only [countFrom, hlookup, this]
      | none =>
          have hfinds : ∀ other ∈ needed schema header column, ∀ counts,
              Faithful schema counts → ∃ m,
                (countFrom schema header depth
                    (path ++ [column]) counts other.id).1 =
                  .ok m := by
            intro other hother counts h
            obtain ⟨m, hm, -⟩ := hweighs.lt_of_needs ⟨other, hother, rfl⟩
            refine ⟨m, ih hm (htrail.extend (htrail.fresh hweighs) hother) ?_ h⟩
            simp only [List.length_append, List.length_singleton]
            omega
          obtain ⟨m, hm⟩ :=
            addReferences_complete (countFrom_sound depth (path ++ [column]))
            (not_passed_of_mem_needed schema header column) hfinds 0 h
          rw [← countFrom_open depth hlookup (htrail.fresh hweighs)] at hm
          have hsound :=
            (countFrom_sound (depth + 1) path counts column h).2 m hm
          rw [hm, hsound.unique hweighs]

theorem Faithful.lookup_eq_none {counts : Counts} {column : String}
    (h : Faithful schema counts)
    (hweighs : ¬∃ n, Weighs schema header column n) :
    counts.lookup (column, header) = none :=
  Option.eq_none_iff_forall_ne_some.mpr fun count hlookup =>
    hweighs ⟨count, h column header count hlookup⟩

theorem countFrom_congr (depth : Nat) {path : List String} {column : String}
    (htrail : Trail schema header path column)
    (hdepth : schema.columns.length + 1 ≤ depth + path.length)
    {known known' : Counts} (h : Faithful schema known)
    (h' : Faithful schema known') :
    (countFrom schema header depth path known column).1 =
      (countFrom schema header depth path known' column).1 := by
  induction depth generalizing path column known known' with
  | zero =>
      -- out of depth only a closed trail is left, which reports the same cycle
      have hclosed : column ∈ path := htrail.closed (by omega)
      have hweighs : ¬∃ n, Weighs schema header column n := fun ⟨n, hn⟩ =>
        htrail.fresh hn hclosed
      simp only [countFrom, h.lookup_eq_none hweighs, h'.lookup_eq_none hweighs]
      split <;> rfl
  | succ depth ih =>
      by_cases hweighs : ∃ n, Weighs schema header column n
      · obtain ⟨n, hn⟩ := hweighs
        rw [countFrom_complete _ hn htrail hdepth h,
          countFrom_complete _ hn htrail hdepth h']
      · -- Neither memory knows a column without a weight, so both look further.
        have hunknown := h.lookup_eq_none hweighs
        have hunknown' := h'.lookup_eq_none hweighs
        by_cases hfresh : column ∈ path
        · simp [countFrom, hunknown, hunknown', hfresh]
        · rw [countFrom_open depth hunknown hfresh,
            countFrom_open depth hunknown' hfresh]
          have hsound : SoundVisit schema header
              (countFrom schema header depth (path ++ [column])) :=
            countFrom_sound depth _
          refine addReferences_congr hsound hsound ?_ 0 h h'
          intro other hother known known' h h'
          refine ih (htrail.extend hfresh hother) ?_ h h'
          simp only [List.length_append, List.length_singleton]
          omega

/-! ## Dependencies -/

theorem countDependencies_faithful {known : Counts} (h : Faithful schema known)
    (column : String) :
    Faithful schema (countDependencies schema header known column).2 :=
  (countFrom_sound _ [] known column h).1

theorem countDependencies_congr {known known' : Counts}
    (h : Faithful schema known) (h' : Faithful schema known')
    (column : String) :
    (countDependencies schema header known column).1 =
      (countDependencies schema header known' column).1 :=
  countFrom_congr _ (.start schema header column) (by simp) h h'

theorem countDependencies_eq_ok_iff {known : Counts} (h : Faithful schema known)
    (column : String) (n : Nat) :
    (countDependencies schema header known column).1 = .ok n ↔
      Weighs schema header column n :=
  ⟨(countFrom_sound _ [] known column h).2 n, fun hweighs =>
    countFrom_complete _ hweighs (.start schema header column) (by simp) h⟩

end ReportDesk.Formula
