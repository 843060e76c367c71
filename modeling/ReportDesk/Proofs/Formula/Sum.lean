import Mathlib.Data.List.Perm.Basic
import ReportDesk.Proofs.Formula.Locality

/-!
# Sums and the order of their operands

The operands of a sum are read from the left, up to the first that is no
number.  A blank one makes the sum blank, any other fails it.  So the order of
the operands matters for the kind of the answer only when operands of both
kinds stand in one sum.
-/

namespace ReportDesk

private theorem Numeral.isEmpty_floatText (x : Float) :
    (floatText x).isEmpty = false := by
  have htext (sign : String) {s : String} (hs : s.toList ≠ []) :
      (sign ++ s).isEmpty = false := by
    rw [Bool.eq_false_iff, ne_eq, String.isEmpty_iff, String.ext_iff,
      String.toList_append]
    exact List.append_ne_nil_of_right_ne_nil _ hs
  have hpositional (s : Scaled) : s.positional.toList ≠ [] := by
    unfold Scaled.positional
    split
    · rw [String.toList_ofList]
      exact List.append_ne_nil_of_left_ne_nil Nat.toDigits_ne_nil _
    · rw [String.toList_ofList]
      exact List.append_ne_nil_of_right_ne_nil _ (List.cons_ne_nil _ _)
  unfold floatText
  simp only
  split
  · rfl
  · split
    · rfl
    · split
      · exact htext _ (by decide)
      · exact htext _ (hpositional _)

namespace Formula

inductive Reading where
  | blank
  | number
  | invalid
deriving DecidableEq, Repr

namespace Reading

def ofOperand (operand : String) : Reading :=
  if Text.isBlankText operand then .blank
  else if (Numeral.readFinite? (Text.trimChars operand.toList)).isSome
    then .number
  else .invalid

/-- The kind of an answer; `none` for an error that is not about a number. -/
def ofResult? : Except Error String → Option Reading
  | .ok value => some (if value.isEmpty then .blank else .number)
  | .error (.invalidNumber _ _) => some .invalid
  | .error _ => none

/-- The reading of the first operand that is no number. -/
def first : List String → Reading
  | [] => .number
  | operand :: rest =>
      match ofOperand operand with
      | .number => first rest
      | decisive => decisive

theorem first_of_number {operand : String} (h : ofOperand operand = .number)
    (rest : List String) : first (operand :: rest) = first rest := by
  rw [first, h]

theorem first_of_decisive {operand : String} (h : ofOperand operand ≠ .number)
    (rest : List String) : first (operand :: rest) = ofOperand operand := by
  rw [first]
  cases hreading : ofOperand operand with
  | number => exact absurd hreading h
  | blank => rfl
  | invalid => rfl

theorem first_eq_number_iff {operands : List String} :
    first operands = .number ↔
      ∀ operand ∈ operands, ofOperand operand = .number := by
  induction operands with
  | nil =>
      exact iff_of_true rfl fun operand hmem => absurd hmem List.not_mem_nil
  | cons operand rest ih =>
      rw [List.forall_mem_cons]
      by_cases hnumber : ofOperand operand = .number
      · rw [first_of_number hnumber, ih, and_iff_right hnumber]
      · rw [first_of_decisive hnumber]
        exact iff_of_false hnumber fun h => hnumber h.1

theorem first_eq_iff {decisive : Reading} (hdecisive : decisive ≠ .number)
    {operands : List String} :
    first operands = decisive ↔ ∃ before operand after,
      operands = before ++ operand :: after ∧ ofOperand operand = decisive ∧
        ∀ earlier ∈ before, ofOperand earlier = .number := by
  constructor
  · intro h
    induction operands with
    | nil => exact absurd h.symm hdecisive
    | cons operand rest ih =>
        by_cases hnumber : ofOperand operand = .number
        · rw [first_of_number hnumber] at h
          obtain ⟨before, found, after, rfl, hfound, hbefore⟩ := ih h
          exact ⟨operand :: before, found, after, rfl, hfound,
            List.forall_mem_cons.mpr ⟨hnumber, hbefore⟩⟩
        · rw [first_of_decisive hnumber] at h
          exact ⟨[], operand, rest, rfl, h,
            fun _ hmem => absurd hmem List.not_mem_nil⟩
  · rintro ⟨before, operand, after, rfl, hoperand, hbefore⟩
    induction before with
    | nil =>
        rw [List.nil_append, first_of_decisive (hoperand ▸ hdecisive), hoperand]
    | cons earlier before ih =>
        rw [List.forall_mem_cons] at hbefore
        rw [List.cons_append, first_of_number hbefore.1, ih hbefore.2]

private theorem exists_mem_of_first {operands : List String}
    (h : first operands ≠ .number) :
    ∃ operand ∈ operands, ofOperand operand = first operands := by
  obtain ⟨before, operand, after, hsplit, hreading, -⟩ :=
    (first_eq_iff h).mp rfl
  exact ⟨operand, by simp [hsplit], hreading⟩

private theorem blank_or_invalid {a b : Reading} (ha : a ≠ .number)
    (hb : b ≠ .number) (hne : a ≠ b) :
    (a = .blank ∧ b = .invalid) ∨ (a = .invalid ∧ b = .blank) := by
  cases a <;> cases b <;> simp_all

private theorem first_of_perm {operands other : List String}
    (hperm : other.Perm operands)
    (hclear : ¬((∃ operand ∈ operands, ofOperand operand = .blank) ∧
      ∃ operand ∈ operands, ofOperand operand = .invalid)) :
    first other = first operands := by
  by_cases hnumber : first operands = .number
  · rw [hnumber, first_eq_number_iff]
    exact fun operand hmem =>
      first_eq_number_iff.mp hnumber operand (hperm.mem_iff.mp hmem)
  · have hother : first other ≠ .number := fun hother =>
      hnumber (first_eq_number_iff.mpr fun operand hmem =>
        first_eq_number_iff.mp hother operand (hperm.mem_iff.mpr hmem))
    -- each list is decided by one of its operands, and they have the same
    -- operands
    obtain ⟨a, ha, hreading⟩ := exists_mem_of_first hnumber
    obtain ⟨b, hb, hreading'⟩ := exists_mem_of_first hother
    rw [hperm.mem_iff] at hb
    by_contra hne
    rcases blank_or_invalid hother hnumber hne
      with ⟨hblank, hinvalid⟩ | ⟨hinvalid, hblank⟩
    · exact hclear
        ⟨⟨b, hb, hreading'.trans hblank⟩, a, ha, hreading.trans hinvalid⟩
    · exact hclear
        ⟨⟨a, ha, hreading.trans hblank⟩, b, hb, hreading'.trans hinvalid⟩

theorem first_perm_iff {operands : List String} :
    (∀ other, other.Perm operands → first other = first operands) ↔
      ¬((∃ operand ∈ operands, ofOperand operand = .blank) ∧
        ∃ operand ∈ operands, ofOperand operand = .invalid) := by
  refine ⟨?_, fun hclear other hperm => first_of_perm hperm hclear⟩
  rintro hsame ⟨⟨a, ha, hblank⟩, b, hb, hinvalid⟩
  -- with one or the other of the two in front
  have hfront := hsame _ (List.perm_cons_erase ha).symm
  have hfront' := hsame _ (List.perm_cons_erase hb).symm
  rw [first_of_decisive (by simp [hblank]), hblank] at hfront
  rw [first_of_decisive (by simp [hinvalid]), hinvalid, ← hfront] at hfront'
  cases hfront'

end Reading

namespace Function

private theorem sumFrom_eq (text : String) (total : Float)
    (operands : List String) :
    match Reading.first operands with
    | .blank => sumFrom text total operands = .ok none
    | .number => ∃ sum, sumFrom text total operands = .ok (some sum)
    | .invalid => ∃ operand,
      sumFrom text total operands = .error (.invalidNumber text operand) := by
  induction operands generalizing total with
  | nil => exact ⟨total, rfl⟩
  | cons operand rest ih =>
      rw [sumFrom]
      by_cases hblank : Text.isBlankText operand = true
      · have hreading : Reading.ofOperand operand = .blank := if_pos hblank
        rw [Reading.first_of_decisive (by simp [hreading]), hreading,
          if_pos hblank]
      · rw [if_neg hblank]
        cases hvalue : Numeral.readFinite? (Text.trimChars operand.toList) with
        | none =>
            have hreading : Reading.ofOperand operand = .invalid := by
              simp [Reading.ofOperand, hblank, hvalue]
            rw [Reading.first_of_decisive (by simp [hreading]), hreading]
            exact ⟨operand, rfl⟩
        | some value =>
            have hreading : Reading.ofOperand operand = .number := by
              simp [Reading.ofOperand, hblank, hvalue]
            rw [Reading.first_of_number hreading]
            exact ih (total + value)

theorem reading_sum (settings : Settings) (fresh text : String)
    {operands : List String} (h : 2 ≤ operands.length) :
    Reading.ofResult?
      (callByName settings fresh text sum.name operands).result =
      some (Reading.first operands) := by
  have haccepted : sum.arity.accepts operands.length = true := decide_eq_true h
  have hsum := sumFrom_eq text 0 operands
  rw [callByName, ofName?_name]
  simp only [call, haccepted, if_true, value, Logged.result_bind,
    Logged.result_ofExcept]
  cases hfirst : Reading.first operands with
  | blank =>
      rw [hfirst] at hsum
      rw [hsum]
      rfl
  | number =>
      rw [hfirst] at hsum
      obtain ⟨total, hsum⟩ := hsum
      rw [hsum]
      change some (if (Numeral.floatText total).isEmpty then Reading.blank
        else .number) = _
      rw [Numeral.isEmpty_floatText]
      rfl
  | invalid =>
      rw [hfirst] at hsum
      obtain ⟨operand, hsum⟩ := hsum
      rw [hsum]
      rfl

theorem result_eq_empty_iff {result : Except Error String} :
    result = .ok "" ↔ Reading.ofResult? result = some .blank := by
  constructor
  · rintro rfl
    rfl
  · intro h
    cases result with
    | error error => cases error <;> cases h
    | ok value =>
        by_cases hempty : value.isEmpty = true
        · rw [String.isEmpty_iff.mp hempty]
        · simp [Reading.ofResult?, hempty] at h

/--
All orders of the operands of a sum have answers of one kind, unless a blank
operand and one that is no number stand in it.  The sum is empty exactly when
only numbers stand before the first blank operand.
-/
theorem sum_kind_perm_iff (settings : Settings) (fresh text : String)
    {operands : List String} (h : 2 ≤ operands.length) :
    ((∀ other, other.Perm operands → ∀ text',
        Reading.ofResult?
        (callByName settings fresh text' sum.name other).result =
          Reading.ofResult?
            (callByName settings fresh text sum.name operands).result) ↔
      ¬((∃ operand ∈ operands, Reading.ofOperand operand = .blank) ∧
        ∃ operand ∈ operands, Reading.ofOperand operand = .invalid)) ∧
      ((callByName settings fresh text sum.name operands).result = .ok "" ↔
        ∃ before blank after, operands = before ++ blank :: after ∧
          Reading.ofOperand blank = .blank ∧
          ∀ earlier ∈ before, Reading.ofOperand earlier = .number) ∧
      (Reading.ofResult?
        (callByName settings fresh text sum.name operands).result).isSome =
          true := by
  have hkind := reading_sum settings fresh text h
  have hother {other : List String} (hperm : other.Perm operands)
      (text' : String) :=
    reading_sum settings fresh text'
      (hperm.length_eq.symm ▸ h : 2 ≤ other.length)
  refine ⟨?_, ?_, ?_⟩
  · rw [← Reading.first_perm_iff, hkind]
    refine forall₂_congr fun other hperm => ?_
    simp only [hother hperm, Option.some.injEq, forall_const]
  · rw [result_eq_empty_iff, hkind, Option.some.injEq,
      Reading.first_eq_iff (by decide)]
  · rw [hkind]
    rfl

/-- A blank operand between numbers empties the sum in all orders. -/
theorem sum_kind_perm_iff_blankBetween :
    2 ≤ ["1", " ", "2"].length ∧
      (∀ other, other.Perm ["1", " ", "2"] → ∀ text',
        Reading.ofResult?
        (callByName .standard "" text' sum.name other).result =
          Reading.ofResult?
            (callByName .standard "" "SUM(1, ,2)" sum.name ["1", " ",
              "2"]).result) ∧
      (callByName .standard "" "SUM(1, ,2)" sum.name ["1", " ", "2"]).result =
        .ok "" := by
  have htwo : 2 ≤ ["1", " ", "2"].length := by decide
  obtain ⟨hperm, hempty, -⟩ := sum_kind_perm_iff .standard "" "SUM(1, ,2)" htwo
  refine ⟨htwo, hperm.mpr ?_,
    hempty.mpr ⟨["1"], " ", ["2"], rfl, by decide +kernel, ?_⟩⟩
  · rintro ⟨-, hinvalid⟩
    revert hinvalid
    decide +kernel
  · decide +kernel

/-- The blank operand comes too late to empty the sum. -/
theorem sum_refused_before_blank :
    ["", "two"].Perm ["two", ""] ∧
      (callByName .standard "" "SUM(,two)" sum.name ["", "two"]).result =
        .ok "" ∧
      (callByName .standard "" "SUM(two,)" sum.name ["two", ""]).result =
        .error (.invalidNumber "SUM(two,)" "two") := by
  decide +kernel

end Function

end Formula

end ReportDesk
