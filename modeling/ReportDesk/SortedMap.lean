/-!
# Finite maps in key order

A map is a list of entries whose keys strictly increase.  The order is part of
the type, so two maps are equal exactly when they answer every look-up alike.
-/

namespace ReportDesk

/-- A finite map, its entries listed by increasing key. -/
structure SortedMap (κ α : Type) [Ord κ] where
  entries : List (κ × α)
  sorted : entries.Pairwise fun a b => compare a.1 b.1 = .lt
deriving DecidableEq

namespace SortedMap

variable {κ α β : Type} [Ord κ]

def insertEntry (k : κ) (v : α) : List (κ × α) → List (κ × α)
  | [] => [(k, v)]
  | (k', v') :: rest =>
      match compare k k' with
      | .lt => (k, v) :: (k', v') :: rest
      | .eq => (k, v) :: rest
      | .gt => (k', v') :: insertEntry k v rest

def findEntry (k : κ) : List (κ × α) → Option α
  | [] => none
  | (k', v) :: rest => if compare k k' = .eq then some v else findEntry k rest

theorem mem_insertEntry {k : κ} {v : α} {entry : κ × α} {entries : List (κ × α)}
    (h : entry ∈ insertEntry k v entries) :
    entry = (k, v) ∨ entry ∈ entries := by
  induction entries with
  | nil => simpa [insertEntry] using h
  | cons head rest ih =>
      obtain ⟨k', v'⟩ := head
      rw [insertEntry] at h
      split at h
      · simpa using h
      · rcases List.mem_cons.mp h with h | h
        · exact .inl h
        · exact .inr (List.mem_cons_of_mem _ h)
      · rcases List.mem_cons.mp h with h | h
        · exact .inr (h ▸ List.mem_cons_self)
        · exact (ih h).imp_right (List.mem_cons_of_mem _)

theorem sorted_insertEntry [Std.TransOrd κ] [Std.LawfulEqOrd κ] (k : κ) (v : α)
    {entries : List (κ × α)}
    (h : entries.Pairwise fun a b => compare a.1 b.1 = .lt) :
    (insertEntry k v entries).Pairwise fun a b => compare a.1 b.1 = .lt := by
  induction entries with
  | nil => simp [insertEntry]
  | cons head rest ih =>
      obtain ⟨k', v'⟩ := head
      obtain ⟨hhead, hrest⟩ := List.pairwise_cons.mp h
      rw [insertEntry]
      split
      next hlt =>
        refine List.pairwise_cons.mpr ⟨?_, h⟩
        intro entry hentry
        rcases List.mem_cons.mp hentry with rfl | hentry
        · exact hlt
        · exact Std.TransCmp.lt_trans hlt (hhead entry hentry)
      next heq =>
        have : k = k' := Std.LawfulEqCmp.eq_of_compare heq
        subst this
        exact List.pairwise_cons.mpr ⟨hhead, hrest⟩
      next hgt =>
        refine List.pairwise_cons.mpr ⟨?_, ih hrest⟩
        intro entry hentry
        rcases mem_insertEntry hentry with rfl | hentry
        · exact Std.OrientedCmp.lt_of_gt hgt
        · exact hhead entry hentry

def empty : SortedMap κ α := ⟨[], .nil⟩

instance : EmptyCollection (SortedMap κ α) := ⟨empty⟩

instance : Inhabited (SortedMap κ α) := ⟨empty⟩

def get? (m : SortedMap κ α) (k : κ) : Option α :=
  findEntry k m.entries

def contains (m : SortedMap κ α) (k : κ) : Bool :=
  (m.get? k).isSome

def erase (m : SortedMap κ α) (k : κ) : SortedMap κ α :=
  ⟨m.entries.filter fun entry => compare k entry.1 != .eq,
    m.sorted.sublist (List.filter_sublist)⟩

def keys (m : SortedMap κ α) : List κ :=
  m.entries.map Prod.fst

def values (m : SortedMap κ α) : List α :=
  m.entries.map Prod.snd

def size (m : SortedMap κ α) : Nat :=
  m.entries.length

def isEmpty (m : SortedMap κ α) : Bool :=
  m.entries.isEmpty

variable [Std.TransOrd κ] [Std.LawfulEqOrd κ]

def insert (m : SortedMap κ α) (k : κ) (v : α) : SortedMap κ α :=
  ⟨insertEntry k v m.entries, sorted_insertEntry k v m.sorted⟩

/-- A later pair of the list replaces an earlier one with the same key. -/
def ofList (pairs : List (κ × α)) : SortedMap κ α :=
  pairs.foldl (fun m pair => m.insert pair.1 pair.2) empty

/-! ## Look-up after each operation -/

omit [Std.TransOrd κ] in
theorem findEntry_insertEntry_self (k : κ) (v : α) (entries : List (κ × α)) :
    findEntry k (insertEntry k v entries) = some v := by
  induction entries with
  | nil => simp [insertEntry, findEntry]
  | cons head rest ih =>
      obtain ⟨k', v'⟩ := head
      rw [insertEntry]
      split
      · simp [findEntry]
      · simp [findEntry]
      next hgt => simp [findEntry, hgt, ih]

omit [Std.TransOrd κ] in
theorem findEntry_insertEntry_of_ne {k k' : κ} (v : α) (h : k' ≠ k)
    (entries : List (κ × α)) :
    findEntry k' (insertEntry k v entries) = findEntry k' entries := by
  have hne : compare k' k ≠ .eq :=
    fun heq => h (Std.LawfulEqCmp.eq_of_compare heq)
  induction entries with
  | nil => simp [insertEntry, findEntry, hne]
  | cons head rest ih =>
      obtain ⟨k'', v''⟩ := head
      rw [insertEntry]
      split
      · simp [findEntry, hne]
      next heq =>
        have : k = k'' := Std.LawfulEqCmp.eq_of_compare heq
        subst this
        simp [findEntry, hne]
      · simp [findEntry, ih]

omit [Std.TransOrd κ] in
theorem findEntry_filter_self (k : κ) (entries : List (κ × α)) :
    findEntry k (entries.filter fun entry => compare k entry.1 != .eq) =
      none := by
  induction entries with
  | nil => simp [findEntry]
  | cons head rest ih =>
      by_cases h : k = head.1
      · simpa [h] using ih
      · simpa [findEntry, h] using ih

omit [Std.TransOrd κ] in
theorem findEntry_filter_of_ne {k k' : κ} (h : k' ≠ k)
    (entries : List (κ × α)) :
    findEntry k' (entries.filter fun entry => compare k entry.1 != .eq) =
      findEntry k' entries := by
  induction entries with
  | nil => simp [findEntry]
  | cons head rest ih =>
      by_cases hk : k = head.1
      · have : k' ≠ head.1 := hk ▸ h
        simpa [findEntry, hk, this] using ih
      · simp [findEntry, hk, ih]

omit [Std.TransOrd κ] [Std.LawfulEqOrd κ] in
@[simp] theorem get?_empty (k : κ) :
    (empty : SortedMap κ α).get? k = none := rfl

@[simp] theorem get?_insert_self (m : SortedMap κ α) (k : κ) (v : α) :
    (m.insert k v).get? k = some v :=
  findEntry_insertEntry_self k v m.entries

theorem get?_insert_of_ne (m : SortedMap κ α) {k k' : κ} (v : α) (h : k' ≠ k) :
    (m.insert k v).get? k' = m.get? k' :=
  findEntry_insertEntry_of_ne v h m.entries

omit [Std.TransOrd κ] in
@[simp] theorem get?_erase_self (m : SortedMap κ α) (k : κ) :
    (m.erase k).get? k = none :=
  findEntry_filter_self k m.entries

omit [Std.TransOrd κ] in
theorem get?_erase_of_ne (m : SortedMap κ α) {k k' : κ} (h : k' ≠ k) :
    (m.erase k).get? k' = m.get? k' :=
  findEntry_filter_of_ne h m.entries

/-! ## Equality -/

omit [Std.TransOrd κ] in
theorem findEntry_eq_some_iff (k : κ) (v : α) {entries : List (κ × α)}
    (h : entries.Pairwise fun a b => compare a.1 b.1 = .lt) :
    findEntry k entries = some v ↔ (k, v) ∈ entries := by
  induction entries with
  | nil => simp [findEntry]
  | cons head rest ih =>
      obtain ⟨k', v'⟩ := head
      obtain ⟨hhead, hrest⟩ := List.pairwise_cons.mp h
      by_cases hk : k = k'
      · subst hk
        have habsent : (k, v) ∉ rest := fun hmem => by simpa using hhead _ hmem
        simp [findEntry, habsent, eq_comm]
      · simp [findEntry, hk, ih hrest]

omit [Std.TransOrd κ] in
theorem get?_eq_some_iff (m : SortedMap κ α) (k : κ) (v : α) :
    m.get? k = some v ↔ (k, v) ∈ m.entries :=
  findEntry_eq_some_iff k v m.sorted

theorem eq_of_get?_eq {m m' : SortedMap κ α} (h : ∀ k, m.get? k = m'.get? k) :
    m = m' := by
  have nodup (n : SortedMap κ α) : n.entries.Nodup :=
    n.sorted.imp fun hab heq => by simp [heq] at hab
  have hmem (entry : κ × α) : entry ∈ m.entries ↔ entry ∈ m'.entries := by
    rw [← get?_eq_some_iff, h, get?_eq_some_iff]
  have hperm : m.entries.Perm m'.entries :=
    (List.perm_ext_iff_of_nodup (nodup m) (nodup m')).mpr hmem
  have heq : m.entries = m'.entries := by
    refine hperm.eq_of_pairwise ?_ m.sorted m'.sorted
    intro a b _ _ hab hba
    exact absurd hba (Std.OrientedCmp.not_lt_of_lt hab)
  obtain ⟨entries, sorted⟩ := m
  obtain ⟨entries', sorted'⟩ := m'
  simpa using heq

theorem insert_insert_self (m : SortedMap κ α) (k : κ) (v v' : α) :
    (m.insert k v).insert k v' = m.insert k v' := by
  refine eq_of_get?_eq fun key => ?_
  by_cases h : key = k
  · simp [h]
  · simp [get?_insert_of_ne _ _ h]

theorem insert_comm (m : SortedMap κ α) {k k' : κ} (v v' : α) (hne : k ≠ k') :
    (m.insert k v).insert k' v' = (m.insert k' v').insert k v := by
  refine eq_of_get?_eq fun key => ?_
  by_cases h : key = k
  · subst h
    simp [get?_insert_of_ne _ _ hne]
  · by_cases h' : key = k'
    · subst h'
      simp [get?_insert_of_ne _ _ h]
    · simp [get?_insert_of_ne _ _ h, get?_insert_of_ne _ _ h']

end SortedMap

end ReportDesk
