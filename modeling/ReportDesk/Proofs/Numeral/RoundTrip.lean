import ReportDesk.Proofs.Text.Trim
import ReportDesk.Report.Status
import ReportDesk.Table.Row

/-!
# Numbers written and read back

The decimal text of a number below the limit is read as that number, also with
zeros in front.  Hence row ids and versions survive being written as texts.
-/

namespace ReportDesk

namespace Numeral

private theorem le_ofDigitChars (cs : List Char) (value : Nat) :
    value ≤ Nat.ofDigitChars 10 cs value := by
  rw [Nat.ofDigitChars_eq_ofDigitChars_zero]
  have : 1 * value ≤ 10 ^ cs.length * value :=
    Nat.mul_le_mul_right value (Nat.pos_of_ne_zero (by simp))
  omega

private theorem readDigits_eq_ok {limit value : Nat} {cs : List Char}
    (hdigits : ∀ c ∈ cs, c.isDigit = true)
    (h : Nat.ofDigitChars 10 cs value < limit) :
    readDigits limit value cs = .ok (Nat.ofDigitChars 10 cs value) := by
  induction cs generalizing value with
  | nil => simp [readDigits]
  | cons c cs ih =>
      rw [List.forall_mem_cons] at hdigits
      rw [Nat.ofDigitChars_cons, Nat.mul_comm] at h ⊢
      have hle := le_ofDigitChars cs (value * 10 + (c.toNat - '0'.toNat))
      rw [readDigits, digitValue?, if_pos hdigits.1]
      simp only
      rw [if_pos (by omega)]
      exact ih hdigits.2 h

theorem readUnsigned_eq_ok {limit : Nat} {cs : List Char} (hne : cs ≠ [])
    (hdigits : ∀ c ∈ cs, c.isDigit = true)
    (h : Nat.ofDigitChars 10 cs 0 < limit) :
    readUnsigned limit cs = .ok (Nat.ofDigitChars 10 cs 0) := by
  rw [← readDigits_eq_ok hdigits h]
  unfold readUnsigned
  split
  · exact absurd rfl hne
  · exact absurd (hdigits '+' (by simp)) (by decide)
  · exact absurd (hdigits '+' (by simp)) (by decide)
  · rfl

private theorem readDigits_lt {limit value n : Nat} {cs : List Char}
    (hvalue : value < limit)
    (h : readDigits limit value cs = .ok n) : n < limit := by
  induction cs generalizing value with
  | nil =>
      rw [readDigits] at h
      exact Except.ok.inj h ▸ hvalue
  | cons c cs ih =>
      rw [readDigits] at h
      split at h
      · cases h
      · split at h
        next hnext => exact ih hnext h
        next => cases h

theorem readUnsigned_lt {limit n : Nat} {cs : List Char} (hlimit : 0 < limit)
    (h : readUnsigned limit cs = .ok n) : n < limit := by
  unfold readUnsigned at h
  split at h
  · cases h
  · cases h
  · exact readDigits_lt hlimit h
  · exact readDigits_lt hlimit h

private theorem isDigit_of_mem_repr {n : Nat} {c : Char}
    (h : c ∈ n.repr.toList) :
    c.isDigit = true := by
  rw [Nat.toList_repr] at h
  exact Nat.isDigit_of_mem_toDigits (by decide) (by decide) h

theorem toList_padded (width n : Nat) :
    (padded width n).toList =
      List.replicate (width - n.repr.length) '0' ++ Nat.toDigits 10 n := by
  simp [padded]

private theorem isDigit_of_mem_padded {width n : Nat} {c : Char}
    (h : c ∈ (padded width n).toList) :
    c.isDigit = true := by
  rw [toList_padded] at h
  rcases List.mem_append.mp h with h | h
  · rw [List.eq_of_mem_replicate h]
    decide
  · exact Nat.isDigit_of_mem_toDigits (by decide) (by decide) h

private theorem ofDigitChars_padded (width n : Nat) :
    Nat.ofDigitChars 10 (padded width n).toList 0 = n := by
  rw [toList_padded, Nat.ofDigitChars_append, Nat.ofDigitChars_replicate_zero,
    Nat.mul_zero, Nat.ofDigitChars_ten_toDigits]

end Numeral

private theorem RowId.toList_text_ne_nil (id : RowId) :
    id.text.toList ≠ [] := by
  rw [RowId.text, Nat.toList_repr]
  exact Nat.toDigits_ne_nil

@[simp] theorem RowId.isEmpty_text (id : RowId) : id.text.isEmpty = false := by
  rw [Bool.eq_false_iff, ne_eq, String.isEmpty_iff]
  intro h
  exact id.toList_text_ne_nil (by rw [h]; rfl)

theorem RowId.isDigit_of_mem_text {id : RowId} {c : Char}
    (h : c ∈ id.text.toList) :
    c.isDigit = true :=
  Numeral.isDigit_of_mem_repr h

theorem RowId.trimChars_text (id : RowId) :
    Text.trimChars id.text.toList = id.text.toList :=
  Text.trimChars_of_not_blank fun _ hc =>
    Text.isBlank_of_isDigit (RowId.isDigit_of_mem_text hc)

@[simp] theorem RowId.trim_text (id : RowId) : Text.trim id.text = id.text := by
  rw [Text.trim, RowId.trimChars_text, String.ofList_toList]

theorem RowId.read_text {id : RowId} (h : id < Numeral.word64) :
    RowId.read id.text = .ok id := by
  have hvalue : Nat.ofDigitChars 10 id.text.toList 0 = id := by
    rw [RowId.text, Nat.toList_repr, Nat.ofDigitChars_ten_toDigits]
  rw [RowId.read, RowId.trimChars_text,
    Numeral.readUnsigned_eq_ok id.toList_text_ne_nil
    (fun _ => RowId.isDigit_of_mem_text) (hvalue.symm ▸ h), hvalue]

theorem RowId.text_injective {id id' : RowId} (h : id.text = id'.text) :
    id = id' := by
  have hdigits := congrArg (fun s => Nat.ofDigitChars 10 s.toList 0) h
  simpa [RowId.text] using hdigits

namespace Report.Version

theorem number?_ofNumber {n : Nat} (h : n < Numeral.word32) :
    number? (ofNumber n) = some n := by
  have hdigits : ∀ c ∈ (ofNumber n).toList, c.isDigit = true := fun c hc =>
    Numeral.isDigit_of_mem_padded hc
  have hne : (ofNumber n).toList ≠ [] := by
    rw [ofNumber, Numeral.toList_padded]
    exact List.append_ne_nil_of_right_ne_nil _ Nat.toDigits_ne_nil
  have hblank : Text.isBlankText (ofNumber n) = false := by
    obtain ⟨c, cs, hcs⟩ := List.exists_cons_of_ne_nil hne
    have hc : c ∈ (ofNumber n).toList := by rw [hcs]; exact List.mem_cons_self
    simp [Text.isBlankText, hcs, Text.isBlank_of_isDigit (hdigits c hc)]
  have hvalue : Nat.ofDigitChars 10 (ofNumber n).toList 0 = n :=
    Numeral.ofDigitChars_padded 2 n
  rw [number?, hblank, Text.trimChars_of_not_blank fun c hc =>
    Text.isBlank_of_isDigit (hdigits c hc),
    Numeral.readUnsigned_eq_ok hne hdigits (hvalue.symm ▸ h), hvalue]
  rfl

theorem number?_lt {version : String} {n : Nat} (h : number? version = some n) :
    n < Numeral.word32 := by
  rw [number?] at h
  split at h
  · rw [← Option.some.inj h]
    decide
  · cases hread :
      Numeral.readUnsigned Numeral.word32 (Text.trimChars version.toList) with
    | error fault =>
        rw [hread] at h
        cases h
    | ok m =>
        rw [hread] at h
        rw [← Option.some.inj h]
        exact Numeral.readUnsigned_lt (by decide) hread

end Report.Version

end ReportDesk

namespace ReportDesk.Numeral

/-!
## What is read as a number

Exactly the decimal texts of the numbers below the limit are read: an optional
plus sign and at least one digit, zeros in front included.
-/

/--
The text is an optional plus sign and at least one digit, and stands for the
number.
-/
def Denotes (cs : List Char) (n : Nat) : Prop :=
  ∃ digits, digits ≠ [] ∧ (∀ c ∈ digits, c.isDigit = true) ∧
    (cs = digits ∨ cs = '+' :: digits) ∧ Nat.ofDigitChars 10 digits 0 = n

private theorem digits_of_readDigits {limit value n : Nat} {cs : List Char}
    (h : readDigits limit value cs = .ok n) :
    (∀ c ∈ cs, c.isDigit = true) ∧ Nat.ofDigitChars 10 cs value = n := by
  induction cs generalizing value with
  | nil =>
      rw [readDigits] at h
      exact ⟨fun c hc => absurd hc List.not_mem_nil, by simpa using h⟩
  | cons c cs ih =>
      rw [readDigits, digitValue?] at h
      by_cases hdigit : c.isDigit = true
      · simp only [hdigit, if_true] at h
        split at h
        · obtain ⟨hdigits, hvalue⟩ := ih h
          refine ⟨List.forall_mem_cons.mpr ⟨hdigit, hdigits⟩, ?_⟩
          rwa [Nat.ofDigitChars_cons, Nat.mul_comm]
        · cases h
      · simp [hdigit] at h

private theorem readUnsigned_plus (limit : Nat) {digits : List Char}
    (hne : digits ≠ []) :
    readUnsigned limit ('+' :: digits) = readDigits limit 0 digits := by
  cases digits with
  | nil => exact absurd rfl hne
  | cons c cs => rfl

theorem denotes_of_readUnsigned {limit n : Nat} {cs : List Char}
    (h : readUnsigned limit cs = .ok n) : Denotes cs n := by
  unfold readUnsigned at h
  split at h
  · cases h
  · cases h
  next digits hne =>
    obtain ⟨hdigits, hvalue⟩ := digits_of_readDigits h
    exact ⟨digits, fun heq => hne (by rw [heq]), hdigits, .inr rfl, hvalue⟩
  next hne _ _ =>
    obtain ⟨hdigits, hvalue⟩ := digits_of_readDigits h
    exact ⟨cs, hne, hdigits, .inl rfl, hvalue⟩

theorem readUnsigned_eq_ok_iff {limit n : Nat} {cs : List Char}
    (hlimit : 0 < limit) :
    readUnsigned limit cs = .ok n ↔ Denotes cs n ∧ n < limit := by
  constructor
  · intro h
    exact ⟨denotes_of_readUnsigned h, readUnsigned_lt hlimit h⟩
  · rintro ⟨⟨digits, hne, hdigits, hcs, rfl⟩, hlt⟩
    rcases hcs with rfl | rfl
    · exact readUnsigned_eq_ok hne hdigits hlt
    · rw [readUnsigned_plus limit hne, readDigits_eq_ok hdigits hlt]

end ReportDesk.Numeral
