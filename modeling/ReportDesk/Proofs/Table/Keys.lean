import Mathlib.Data.List.Perm.Basic
import Mathlib.Data.List.Nodup
import ReportDesk.SortedMap

/-!
# Maps made from lists

A map made from a list of pairs has an entry for each key of the list.  When no
key occurs twice it has an entry for each pair.
-/

namespace ReportDesk.SortedMap

variable {κ α : Type} [Ord κ] [Std.TransOrd κ] [Std.LawfulEqOrd κ]

omit [Std.TransOrd κ] [Std.LawfulEqOrd κ] in
@[simp] theorem length_keys (m : SortedMap κ α) : m.keys.length = m.size := by
  simp [keys, size]

omit [Std.TransOrd κ] [Std.LawfulEqOrd κ] in
theorem pairwise_keys (m : SortedMap κ α) :
    m.keys.Pairwise fun a b => compare a b = .lt :=
  List.pairwise_map.mpr m.sorted

omit [Std.TransOrd κ] in
theorem nodup_keys (m : SortedMap κ α) : m.keys.Nodup := by
  apply m.pairwise_keys.imp
  intro a b hlt heq
  simp [heq] at hlt

omit [Std.TransOrd κ] in
theorem mem_keys {m : SortedMap κ α} {k : κ} :
    k ∈ m.keys ↔ (m.get? k).isSome = true := by
  simp [keys, Option.isSome_iff_exists, get?_eq_some_iff]

omit [Std.TransOrd κ] in
theorem filterMap_keys (m : SortedMap κ α) :
    m.keys.filterMap m.get? = m.values := by
  rw [keys, values, List.filterMap_map, ← List.filterMap_eq_map]
  apply List.filterMap_congr
  intro entry hentry
  exact (get?_eq_some_iff m entry.1 entry.2).mpr hentry

theorem mem_keys_insert {m : SortedMap κ α} {k k' : κ} {v : α} :
    k' ∈ (m.insert k v).keys ↔ k' = k ∨ k' ∈ m.keys := by
  by_cases h : k' = k
  · simp [mem_keys, h]
  · simp [mem_keys, get?_insert_of_ne m v h, h]

def insertAll (m : SortedMap κ α) (pairs : List (κ × α)) : SortedMap κ α :=
  pairs.foldl (fun m pair => m.insert pair.1 pair.2) m

theorem insertAll_cons (m : SortedMap κ α) (pair : κ × α)
    (rest : List (κ × α)) :
    m.insertAll (pair :: rest) = (m.insert pair.1 pair.2).insertAll rest := rfl

private theorem mem_keys_insertAll {m : SortedMap κ α}
    {pairs : List (κ × α)} {k : κ} :
    k ∈ (m.insertAll pairs).keys ↔ k ∈ m.keys ∨ k ∈ pairs.map Prod.fst := by
  induction pairs generalizing m with
  | nil => simp [insertAll]
  | cons pair rest ih =>
      rw [insertAll_cons, ih, mem_keys_insert]
      simp only [List.map_cons, List.mem_cons]
      tauto

private theorem get?_insertAll_of_not_mem {m : SortedMap κ α}
    {pairs : List (κ × α)} {k : κ}
    (h : k ∉ pairs.map Prod.fst) : (m.insertAll pairs).get? k = m.get? k := by
  induction pairs generalizing m with
  | nil => rfl
  | cons pair rest ih =>
      simp only [List.map_cons, List.mem_cons, not_or] at h
      rw [insertAll_cons, ih h.2, get?_insert_of_ne m pair.2 h.1]

theorem get?_insertAll_of_mem {m : SortedMap κ α} {pairs : List (κ × α)}
    {k : κ} {v : α} (hnodup : (pairs.map Prod.fst).Nodup)
    (hmem : (k, v) ∈ pairs) :
    (m.insertAll pairs).get? k = some v := by
  induction pairs generalizing m with
  | nil => cases hmem
  | cons pair rest ih =>
      obtain ⟨hfirst, hrest⟩ := List.nodup_cons.mp hnodup
      rw [insertAll_cons]
      rcases List.mem_cons.mp hmem with rfl | hmem
      · simp [get?_insertAll_of_not_mem hfirst]
      · exact ih hrest hmem

theorem ofList_entries (m : SortedMap κ α) : ofList m.entries = m := by
  refine eq_of_get?_eq fun k => ?_
  change ((empty : SortedMap κ α).insertAll m.entries).get? k = m.get? k
  cases hget : m.get? k with
  | none =>
      have habsent : k ∉ m.keys := by simp [mem_keys, hget]
      rw [get?_insertAll_of_not_mem habsent, get?_empty]
  | some v =>
      exact get?_insertAll_of_mem m.nodup_keys
        ((get?_eq_some_iff m k v).mp hget)

theorem size_insertAll_empty_iff {pairs : List (κ × α)} :
    ((empty : SortedMap κ α).insertAll pairs).size = pairs.length ↔
      (pairs.map Prod.fst).Nodup := by
  have hkeys (k : κ) : k ∈ ((empty : SortedMap κ α).insertAll pairs).keys ↔
      k ∈ pairs.map Prod.fst := by
    rw [mem_keys_insertAll]
    simp [mem_keys]
  have hnodup := nodup_keys ((empty : SortedMap κ α).insertAll pairs)
  rw [← length_keys, ← List.length_map Prod.fst]
  constructor
  · intro hlength
    have hperm :=
      (List.subperm_of_subset hnodup fun k hk =>
        (hkeys k).mp hk).perm_of_length_le
      (Nat.le_of_eq hlength.symm)
    exact hperm.nodup_iff.mp hnodup
  · intro h
    exact ((List.perm_ext_iff_of_nodup hnodup h).mpr hkeys).length_eq

end ReportDesk.SortedMap
