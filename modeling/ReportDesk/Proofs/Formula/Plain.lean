import Mathlib.Data.List.Infix
import ReportDesk.Formula.Function

/-!
# Texts without the signs of the formula language

A plain text holds no character that a stage of the evaluation could take for
a part of a formula.  Plain operands have a plain value.
-/

namespace ReportDesk.Formula

def isSign (c : Char) : Bool :=
  c == '%' || c == '(' || c == ')' || c == ',' || c == '=' || c == '!'

def Plain (text : String) : Prop :=
  ∀ c ∈ text.toList, isSign c = false

instance (text : String) : Decidable (Plain text) :=
  decidable_of_iff ((text.toList.all fun c => !isSign c) = true)
    (by simp [Plain])

theorem Plain.not_mem {text : String} {sign : Char} (h : Plain text)
    (hsign : isSign sign = true) : sign ∉ text.toList := by
  intro hmem
  rw [h sign hmem] at hsign
  cases hsign

theorem isSign_of_isIdentifierChar {c : Char}
    (h : Text.isIdentifierChar c = true) :
    isSign c = false := by
  by_contra hsign
  rw [Bool.not_eq_false] at hsign
  simp only [isSign, Bool.or_eq_true, beq_iff_eq] at hsign
  rcases hsign with ((((rfl | rfl) | rfl) | rfl) | rfl) | rfl
  all_goals exact absurd h (by decide)

/-! ## Values of functions -/

theorem Settings.plain_truthText {settings : Settings}
    (htrue : Plain settings.trueValue) (hfalse : Plain settings.falseValue)
    (value : Bool) :
    Plain (settings.truthText value) := by
  cases value with
  | true => exact htrue
  | false => exact hfalse

namespace Function

private theorem plain_padZeros {text : String} (h : Plain text) (width : Nat) :
    Plain (padZeros width text) := by
  intro c hc
  rw [padZeros, String.toList_ofList, List.mem_append] at hc
  rcases hc with hc | hc
  · rw [List.eq_of_mem_replicate hc]
    decide
  · exact h c hc

private theorem plain_keepFirst {text : String} (h : Plain text) (count : Nat) :
    Plain (keepFirst count text) := by
  intro c hc
  rw [keepFirst, String.toList_ofList] at hc
  exact h c (List.mem_of_mem_take hc)

private theorem plain_keepLast {text : String} (h : Plain text) (count : Nat) :
    Plain (keepLast count text) := by
  intro c hc
  rw [keepLast, String.toList_ofList] at hc
  exact h c (List.mem_of_mem_drop hc)

private theorem plain_hexUpper (bytes : List UInt8) :
    Plain (Digest.hexUpper bytes) := by
  have hdigit : ∀ n < 16, isSign (Nat.digitChar n).toUpper = false := by decide
  intro c hc
  rw [Digest.hexUpper, String.toList_ofList, List.mem_flatMap] at hc
  obtain ⟨b, -, hc⟩ := hc
  have hb : b.toNat < 256 := b.toNat_lt
  simp only [List.map_cons, List.map_nil, List.mem_cons, List.not_mem_nil,
    or_false] at hc
  rcases hc with rfl | rfl
  · exact hdigit _ (by omega)
  · exact hdigit _ (by omega)

theorem exists_of_result_ofExcept {length : Except Error Nat}
    {shorten : Nat → String} {v : String}
    (h : (do return shorten (← .ofExcept length) : Logged Error String).result =
      .ok v) :
    ∃ n, v = shorten n := by
  cases length with
  | error error => cases h
  | ok n => exact ⟨n, (Except.ok.inj h).symm⟩

theorem plain_of_call {settings : Settings} (htrue : Plain settings.trueValue)
    (hfalse : Plain settings.falseValue) {fresh text v : String} {f : Function}
    {operands : List String} (hsum : f ≠ .sum) (hnext : f ≠ .next)
    (hoperands : ∀ operand ∈ operands, Plain operand)
    (h : (f.call settings fresh text operands).result = .ok v) : Plain v := by
  unfold call at h
  split at h
  · unfold value at h
    split at h
    · cases h
      exact Settings.plain_truthText htrue hfalse _
    · cases h
      exact Settings.plain_truthText htrue hfalse _
    · exact absurd rfl hsum
    · obtain ⟨n, rfl⟩ := exists_of_result_ofExcept h
      exact plain_padZeros (hoperands _ List.mem_cons_self) n
    · obtain ⟨n, rfl⟩ := exists_of_result_ofExcept h
      exact plain_keepLast (hoperands _ List.mem_cons_self) n
    · obtain ⟨n, rfl⟩ := exists_of_result_ofExcept h
      exact plain_keepFirst (hoperands _ List.mem_cons_self) n
    · cases h
      split
      · exact hoperands _ (by simp)
      · exact hoperands _ (by simp)
    · cases h
      split
      · exact hoperands _ (by simp)
      · exact hoperands _ (by simp)
    · split at h
      · cases h
        exact plain_hexUpper _
      · cases h
    · exact absurd rfl hnext
    · cases h
  · cases h

end Function

end ReportDesk.Formula
