import ReportDesk.Json.Value
import ReportDesk.Proofs.Result

/-!
# What a value must look like to be read

Each way to read a value has a shape beside it, a relation between the value
and what it stands for, and succeeds exactly on the values of that shape.  The
members of an object may stand in any order, among others that are not known.
-/

namespace ReportDesk.Json

/--
Reading succeeds exactly on the values that stand for something, and gives that.
-/
def Reads {α : Type} (decode : Json → Decoded α) (shape : Json → α → Prop) :
    Prop :=
  ∀ value a, decode value = .ok a ↔ shape value a

/-! ## Shapes -/

inductive IsText : Json → String → Prop where
  | string (s : String) : IsText (.string s) s

inductive IsNatural (limit : Nat) : Json → Nat → Prop where
  | natural {n : Nat} (h : n < limit) : IsNatural limit (.natural n) n

section Shapes

variable {α : Type} (shape : Json → α → Prop)

inductive IsList : Json → List α → Prop where
  | array {items : List Json} {as : List α} (h : List.Forall₂ shape items as) :
      IsList (.array items) as

inductive IsMembers : Json → List (String × α) → Prop where
  | object {members : List (String × Json)} {entries : List (String × α)}
      (h : List.Forall₂
        (fun m e => m.1 = e.1 ∧ shape m.2 e.2) members entries) :
      IsMembers (.object members) entries

inductive IsGiven : Option Json → α → Prop where
  | given {value : Json} {a : α} (h : shape value a) : IsGiven (some value) a

inductive IsDefaulted (default : α) : Option Json → α → Prop where
  | absent : IsDefaulted default none default
  | given {value : Json} {a : α} (h : shape value a) :
      IsDefaulted default (some value) a

inductive IsOptional : Option Json → Option α → Prop where
  | absent : IsOptional none none
  | null : IsOptional (some .null) none
  | given {value : Json} {a : α} (hne : value ≠ .null) (h : shape value a) :
      IsOptional (some value) (some a)

end Shapes

/-- What an object has under a key, which may stand in it once. -/
def Holds (members : List (String × Json)) (key : String) (slot : Option Json) :
    Prop :=
  members.filter (fun m => m.1 == key) = slot.toList.map fun value =>
    (key, value)

inductive IsRecord (keys : List String) : Json → List (Option Json) → Prop where
  | object {members : List (String × Json)} {slots : List (Option Json)}
      (h : List.Forall₂ (Holds members) keys slots) :
        IsRecord keys (.object members) slots
  | array {items : List Json} (h : items.length ≤ keys.length) :
      IsRecord keys (.array items)
        (items.map some ++ List.replicate (keys.length - items.length) none)

/-! ## Reading them -/

theorem reads_asString : Reads asString IsText := by
  intro value s
  constructor
  · intro h
    unfold asString at h
    split at h
    · cases h
      exact .string s
    · cases h
  · rintro ⟨⟩
    rfl

theorem reads_asNatural (limit : Nat) :
    Reads (asNatural limit) (IsNatural limit) := by
  intro value n
  constructor
  · intro h
    unfold asNatural at h
    split at h
    · split at h
      next hlt =>
        cases h
        exact .natural hlt
      · cases h
    · cases h
  · rintro ⟨hlt⟩
    exact if_pos hlt

private theorem uniqueMember_eq_ok_iff {members : List (String × Json)}
    {key : String} {slot : Option Json} :
    uniqueMember members key = .ok slot ↔ Holds members key slot := by
  have hkey {m : String × Json} (hm : m ∈ members.filter fun m => m.1 == key) :
      m.1 = key :=
    beq_iff_eq.mp (List.mem_filter.mp hm).2
  unfold uniqueMember Holds
  split
  next hnone =>
    rw [hnone, Except.ok.injEq]
    cases slot <;> simp
  next key' value hone =>
    obtain rfl : key' = key :=
      hkey (by rw [hone]; exact List.mem_singleton_self _)
    rw [hone, Except.ok.injEq]
    cases slot <;> simp [eq_comm]
  next hnone hone =>
    refine iff_of_false (by simp [mismatch]) fun h => ?_
    cases slot with
    | none => exact hnone h
    | some value => exact hone key value h

theorem recordFields_eq_ok_iff {keys : List String} {value : Json}
    {slots : List (Option Json)} :
    recordFields keys value = .ok slots ↔ IsRecord keys value slots := by
  constructor
  · intro h
    unfold recordFields at h
    split at h
    · rw [mapM_eq_ok_iff] at h
      exact .object (h.imp fun _ _ => uniqueMember_eq_ok_iff.mp)
    · split at h
      next hle =>
        cases h
        exact .array hle
      · cases h
    · cases h
  · intro h
    cases h with
    | object h =>
        exact mapM_eq_ok_iff.mpr (h.imp fun _ _ => uniqueMember_eq_ok_iff.mpr)
    | array h => exact if_pos h

namespace IsRecord

variable {key key' key'' : String} {value : Json}
  {P : List (Option Json) → Prop}

theorem length_eq {keys : List String} {slots : List (Option Json)}
    (h : IsRecord keys value slots) : slots.length = keys.length := by
  cases h with
  | object h => exact h.length_eq.symm
  | array h =>
      rw [List.length_append, List.length_map, List.length_replicate]
      omega

theorem exists_two_iff :
    (∃ slots, IsRecord [key, key'] value slots ∧ P slots) ↔
      ∃ slot slot', IsRecord [key, key'] value [slot, slot'] ∧
        P [slot, slot'] := by
  constructor
  · rintro ⟨slots, hslots, h⟩
    obtain ⟨slot, slot', rfl⟩ := List.length_eq_two.mp hslots.length_eq
    exact ⟨slot, slot', hslots, h⟩
  · rintro ⟨slot, slot', hslots, h⟩
    exact ⟨_, hslots, h⟩

theorem exists_three_iff :
    (∃ slots, IsRecord [key, key', key''] value slots ∧ P slots) ↔
      ∃ slot slot' slot'',
          IsRecord [key, key', key''] value [slot, slot', slot''] ∧
        P [slot, slot', slot''] := by
  constructor
  · rintro ⟨slots, hslots, h⟩
    obtain ⟨slot, slot', slot'', rfl⟩ :=
      List.length_eq_three.mp hslots.length_eq
    exact ⟨slot, slot', slot'', hslots, h⟩
  · rintro ⟨slot, slot', slot'', hslots, h⟩
    exact ⟨_, hslots, h⟩

end IsRecord

namespace Reads

variable {α : Type} {decode : Json → Decoded α} {shape : Json → α → Prop}

theorem list (h : Reads decode shape) :
    Reads (asList decode) (IsList shape) := by
  intro value as
  constructor
  · intro hread
    unfold asList at hread
    split at hread
    · exact .array ((mapM_eq_ok_iff.mp hread).imp fun _ _ => (h _ _).mp)
    · cases hread
  · rintro ⟨hitems⟩
    exact mapM_eq_ok_iff.mpr (hitems.imp fun _ _ => (h _ _).mpr)

theorem members (h : Reads decode shape) :
    Reads (asMembers decode) (IsMembers shape) := by
  have hmember (m : String × Json) (e : String × α) :
      (do return (m.1, ← decode m.2) : Decoded (String × α)) = .ok e ↔
        m.1 = e.1 ∧ shape m.2 e.2 := by
    rw [bind_eq_ok_iff, ← h]
    constructor
    · rintro ⟨a, ha, he⟩
      cases he
      exact ⟨rfl, ha⟩
    · rintro ⟨hkey, ha⟩
      exact ⟨e.2, ha, by rw [hkey]; rfl⟩
  intro value entries
  constructor
  · intro hread
    unfold asMembers at hread
    split at hread
    · exact .object ((mapM_eq_ok_iff.mp hread).imp fun m e => (hmember m e).mp)
    · cases hread
  · rintro ⟨hmembers⟩
    exact mapM_eq_ok_iff.mpr (hmembers.imp fun m e => (hmember m e).mpr)

theorem required (h : Reads decode shape) (key : String)
    {slot : Option Json} {a : α} :
    Json.required key decode slot = .ok a ↔ IsGiven shape slot a := by
  cases slot with
  | none =>
      exact iff_of_false (by simp [Json.required, mismatch]) (by rintro ⟨⟩)
  | some value =>
      constructor
      · exact fun hread => .given ((h value a).mp hread)
      · rintro ⟨hshape⟩
        exact (h value a).mpr hshape

theorem withDefault (h : Reads decode shape) {default : α}
    {slot : Option Json} {a : α} :
    Json.withDefault default decode slot = .ok a ↔
      IsDefaulted shape default slot a := by
  cases slot with
  | none =>
      constructor
      · intro hread
        cases hread
        exact .absent
      · rintro ⟨⟩
        rfl
  | some value =>
      constructor
      · exact fun hread => .given ((h value a).mp hread)
      · intro hshape
        cases hshape with
        | given hshape => exact (h value a).mpr hshape

theorem optional (h : Reads decode shape) {slot : Option Json} {o : Option α} :
    Json.optional decode slot = .ok o ↔ IsOptional shape slot o := by
  constructor
  · intro hread
    unfold Json.optional at hread
    split at hread
    · cases hread
      exact .absent
    · cases hread
      exact .null
    next value hne =>
      cases hdecoded : decode value with
      | error error =>
          rw [hdecoded] at hread
          cases hread
      | ok a =>
          rw [hdecoded] at hread
          cases hread
          exact .given (fun heq => hne heq) ((h _ _).mp hdecoded)
  · intro hshape
    cases hshape with
    | absent => rfl
    | null => rfl
    | @given value a hne hshape =>
        have hdecoded := (h value a).mpr hshape
        unfold Json.optional
        split
        · cases ‹some value = none›
        next heq => exact absurd (Option.some.inj heq) hne
        next value' _ heq =>
          obtain rfl := Option.some.inj heq
          rw [hdecoded]
          rfl

end Reads

/-! ## Written values have their shapes -/

private theorem holds_of_not_mem {members : List (String × Option Json)}
    {key : String} (h : key ∉ members.map Prod.fst) :
    Holds (members.filterMap fun (key, value) => value.map fun v => (key, v))
      key none := by
  refine List.filter_eq_nil_iff.mpr fun m hm heq => h ?_
  obtain ⟨⟨key', value⟩, hmem, hpresent⟩ := List.mem_filterMap.mp hm
  obtain ⟨v, -, rfl⟩ := Option.map_eq_some_iff.mp hpresent
  rw [beq_iff_eq] at heq
  exact List.mem_map.mpr ⟨_, hmem, heq⟩

private theorem holds_of_mem {members : List (String × Option Json)}
    (hnodup : (members.map Prod.fst).Nodup) {m : String × Option Json}
    (hm : m ∈ members) :
    Holds (members.filterMap fun (key, value) => value.map fun v => (key, v))
      m.1 m.2 := by
  induction members with
  | nil => exact absurd hm List.not_mem_nil
  | cons first rest ih =>
      obtain ⟨hfirst, hrest⟩ := List.nodup_cons.mp hnodup
      obtain ⟨key, value⟩ := first
      rcases List.mem_cons.mp hm with rfl | hm
      · have hnone := holds_of_not_mem hfirst
        unfold Holds at hnone ⊢
        cases value with
        | none => simpa using hnone
        | some v => simpa using hnone
      · have hne : key ≠ m.1 :=
          fun heq => hfirst (List.mem_map.mpr ⟨m, hm, heq.symm⟩)
        have hheld := ih hrest hm
        unfold Holds at hheld ⊢
        cases value with
        | none => simpa using hheld
        | some v => simpa [hne] using hheld

theorem isRecord_objectOfPresent (members : List (String × Option Json))
    (hnodup : (members.map Prod.fst).Nodup) :
    IsRecord (members.map Prod.fst) (objectOfPresent members)
      (members.map Prod.snd) := by
  refine .object ?_
  rw [List.forall₂_map_left_iff, List.forall₂_map_right_iff, List.forall₂_same]
  exact fun m hm => holds_of_mem hnodup hm

section Written

variable {α : Type} {shape : Json → α → Prop} {write : α → Json}
  (hwrite : ∀ a, shape (write a) a)

include hwrite

theorem isList_map (as : List α) : IsList shape (.array (as.map write)) as := by
  refine .array ?_
  rw [List.forall₂_map_left_iff, List.forall₂_same]
  exact fun a _ => hwrite a

theorem isMembers_map (entries : List (String × α)) :
    IsMembers shape
      (.object (entries.map fun (key, a) => (key, write a))) entries := by
  refine .object ?_
  rw [List.forall₂_map_left_iff, List.forall₂_same]
  exact fun e _ => ⟨rfl, hwrite e.2⟩

theorem isOptional_map (hne : ∀ a, write a ≠ .null) (o : Option α) :
    IsOptional shape (o.map write) o := by
  cases o with
  | none => exact .absent
  | some a => exact .given (hne a) (hwrite a)

end Written

end ReportDesk.Json
