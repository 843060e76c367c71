import ReportDesk.Formula.Function
import ReportDesk.Proofs.Numeral.RoundTrip

/-!
# Padding and cutting texts

The functions that take a number of characters work on characters, whatever
their encoding.  Padding puts zeros in front of a text, the two cuts keep its
first or its last characters and together lose none, and a number that cannot
be read or is beyond the limit of the function fails the call.
-/

namespace ReportDesk.Formula

/--
The operand, without the white space around it, is a decimal text of the number.
-/
def IsLength (operand : String) (n : Nat) : Prop :=
  Numeral.Denotes (Text.trimChars operand.toList) n

namespace Function

def Answers (f : Function) (operands : List String) (value : String) : Prop :=
  ∀ settings fresh text name, ofName? name = some f →
    (callByName settings fresh text name operands).result = .ok value

def Refuses (f : Function) (operands : List String) (operand : String) : Prop :=
  ∀ settings fresh text name, ofName? name = some f →
    (callByName settings fresh text name operands).result =
      .error (.invalidNumber text operand)

/-! ## Texts of a given length -/

theorem toList_padZeros (width : Nat) (t : String) :
    (padZeros width t).toList = List.replicate (width - t.length) '0' ++
      t.toList := by
  rw [padZeros, String.toList_ofList, String.length_toList]

private theorem length_padZeros (width : Nat) (t : String) :
    (padZeros width t).length = max t.length width := by
  rw [← String.length_toList, toList_padZeros, List.length_append,
    List.length_replicate, String.length_toList]
  omega

private theorem padZeros_of_le {width : Nat} {t : String}
    (h : width ≤ t.length) :
    padZeros width t = t := by
  rw [String.ext_iff, toList_padZeros, Nat.sub_eq_zero_of_le h]
  rfl

private theorem length_keepFirst (count : Nat) (t : String) :
    (keepFirst count t).length = min count t.length := by
  rw [keepFirst, String.length_ofList, List.length_take, String.length_toList]

private theorem length_keepLast (count : Nat) (t : String) :
    (keepLast count t).length = min count t.length := by
  rw [keepLast, String.length_ofList, List.length_drop, String.length_toList]
  omega

private theorem keepFirst_append_keepLast {count : Nat} {t : String}
    (h : count ≤ t.length) :
    keepFirst count t ++ keepLast (t.length - count) t = t := by
  rw [String.ext_iff, String.toList_append, keepFirst, keepLast,
    String.toList_ofList, String.toList_ofList, String.length_toList,
    Nat.sub_sub_self h, List.take_append_drop]

private theorem keepFirst_of_le {count : Nat} {t : String}
    (h : t.length ≤ count) :
    keepFirst count t = t := by
  rw [keepFirst, List.take_of_length_le (by rwa [String.length_toList]),
    String.ofList_toList]

private theorem keepLast_of_le {count : Nat} {t : String}
    (h : t.length ≤ count) :
    keepLast count t = t := by
  rw [keepLast, String.length_toList, Nat.sub_eq_zero_of_le h, List.drop_zero,
    String.ofList_toList]

/-! ## Calls -/

variable {limit n : Nat} {t w : String}

private theorem readLength_of_isLength (text : String)
    (hlimit : limit < Numeral.word32) (hle : n ≤ limit)
    (hlength : IsLength w n) :
    readLength text limit w = .ok n := by
  rw [readLength, (Numeral.readUnsigned_eq_ok_iff (by decide)).mpr
    ⟨hlength, Nat.lt_of_le_of_lt hle hlimit⟩]
  exact if_pos hle

private theorem readLength_of_not_isLength (text : String)
    (h : ∀ n ≤ limit, ¬IsLength w n) :
    readLength text limit w = .error (.invalidNumber text w) := by
  unfold readLength
  split
  next n hread =>
    have hlength : IsLength w n := Numeral.denotes_of_readUnsigned hread
    exact if_neg fun hle => h n hle hlength
  next => rfl

private theorem not_isLength_of_readLength (text : String)
    (hlimit : limit < Numeral.word32)
    (h : (readLength text limit w).toOption = none) :
    ∀ n ≤ limit, ¬IsLength w n := by
  intro n hle hlength
  rw [readLength_of_isLength text hlimit hle hlength] at h
  cases h

inductive Sizes : Function → Nat → (Nat → String → String) → Prop where
  | zeroPadding : Sizes .zeroPadding greatestWidth padZeros
  | rightTrim : Sizes .rightTrim greatestCount keepLast
  | leftTrim : Sizes .leftTrim greatestCount keepFirst

namespace Sizes

variable {f : Function} {change : Nat → String → String}

private theorem limit_lt (h : Sizes f limit change) :
    limit < Numeral.word32 := by
  cases h <;> decide

theorem result (h : Sizes f limit change) (settings : Settings)
    (fresh text : String) {name : String} (hname : ofName? name = some f)
    (t w : String) :
    (callByName settings fresh text name [t, w]).result =
      (readLength text limit w).map fun n => change n t := by
  rw [callByName, hname]
  cases h with
  | zeroPadding => exact Logged.result_bind _ _
  | rightTrim => exact Logged.result_bind _ _
  | leftTrim => exact Logged.result_bind _ _

theorem answers (h : Sizes f limit change) (hlength : IsLength w n)
    (hle : n ≤ limit) :
    f.Answers [t, w] (change n t) := by
  intro settings fresh text name hname
  rw [h.result settings fresh text hname,
    readLength_of_isLength text h.limit_lt hle hlength]
  rfl

theorem refuses (h : Sizes f limit change)
    (hrefused : ∀ n ≤ limit, ¬IsLength w n) :
    f.Refuses [t, w] w := by
  intro settings fresh text name hname
  rw [h.result settings fresh text hname,
    readLength_of_not_isLength text hrefused]
  rfl

end Sizes

/--
A text padded to a width is the text after zeros, as long as the width asks;
its last characters fill the width, and padding it again changes nothing.  The
first characters of a text and the rest of them make up the text, and a cut
that is longer than the text keeps it.  A number beyond the limit, or none at
all, fails the call.
-/
theorem padding_and_cutting (t w : String) :
    (∀ n ≤ 65536, IsLength w n → ∃ zeros padded cut,
        zeroPadding.Answers [t, w] padded ∧
        padded.toList = List.replicate zeros '0' ++ t.toList ∧
        padded.length = max t.length n ∧
        rightTrim.Answers [padded, w] cut ∧ cut.length = n ∧
        zeroPadding.Answers [padded, w] padded) ∧
      (∀ n w', IsLength w n → IsLength w' (t.length - n) → n ≤ t.length →
          n ≤ 2147483647 →
        t.length - n ≤ 2147483647 → ∃ front back,
          leftTrim.Answers [t, w] front ∧ rightTrim.Answers [t, w'] back ∧
          front.length = n ∧ front ++ back = t) ∧
      (∀ n, IsLength w n → t.length ≤ n → n ≤ 2147483647 →
        leftTrim.Answers [t, w] t ∧ rightTrim.Answers [t, w] t) ∧
      ((∀ n ≤ 65536, ¬IsLength w n) → zeroPadding.Refuses [t, w] w) ∧
      ((∀ n ≤ 2147483647, ¬IsLength w n) →
        leftTrim.Refuses [t, w] w ∧ rightTrim.Refuses [t, w] w) := by
  refine ⟨fun n hle hlength => ?_, fun n w' hlength hlength' hn hle hle' => ?_,
    fun n hlength hlong hle => ⟨?_, ?_⟩, Sizes.zeroPadding.refuses,
    fun hrefused =>
      ⟨Sizes.leftTrim.refuses hrefused, Sizes.rightTrim.refuses hrefused⟩⟩
  · have hwide : n ≤ (padZeros n t).length := by
      rw [length_padZeros]
      exact Nat.le_max_right _ _
    have hagain : zeroPadding.Answers [padZeros n t, w]
        (padZeros n (padZeros n t)) :=
      Sizes.zeroPadding.answers hlength hle
    rw [padZeros_of_le hwide] at hagain
    have hcount : n ≤ greatestCount := Nat.le_trans hle (by decide)
    refine ⟨n - t.length, padZeros n t, keepLast n (padZeros n t),
      Sizes.zeroPadding.answers hlength hle, toList_padZeros n t,
        length_padZeros n t,
      Sizes.rightTrim.answers hlength hcount, ?_, hagain⟩
    rw [length_keepLast, Nat.min_eq_left hwide]
  · refine ⟨keepFirst n t, keepLast (t.length - n) t,
      Sizes.leftTrim.answers hlength hle, Sizes.rightTrim.answers hlength' hle',
      ?_, keepFirst_append_keepLast hn⟩
    rw [length_keepFirst, Nat.min_eq_left hn]
  · have hwhole : leftTrim.Answers [t, w] (keepFirst n t) :=
      Sizes.leftTrim.answers hlength hle
    rwa [keepFirst_of_le hlong] at hwhole
  · have hwhole : rightTrim.Answers [t, w] (keepLast n t) :=
      Sizes.rightTrim.answers hlength hle
    rwa [keepLast_of_le hlong] at hwhole

theorem padding_and_cutting_accented :
    (∃ zeros padded cut, zeroPadding.Answers ["àèì", " +05"] padded ∧
        padded.toList = List.replicate zeros '0' ++ "àèì".toList ∧
        padded.length = 5 ∧
        rightTrim.Answers [padded, " +05"] cut ∧ cut.length = 5 ∧
        zeroPadding.Answers [padded, " +05"] padded) ∧
      (∃ front back, leftTrim.Answers ["àèì", "2"] front ∧
          rightTrim.Answers ["àèì", "1"] back ∧
        front.length = 2 ∧ front ++ back = "àèì") ∧
      (leftTrim.Answers ["àèì", " +05"] "àèì" ∧
        rightTrim.Answers ["àèì", " +05"] "àèì") ∧
      zeroPadding.Refuses ["àèì", "65537"] "65537" ∧
      leftTrim.Refuses ["àèì", "3000000000"] "3000000000" ∧
      rightTrim.Refuses ["àèì", "3000000000"] "3000000000" := by
  have hfive : IsLength " +05" 5 :=
    ⟨['0', '5'], by decide, List.all_eq_true.mp rfl,
      .inr (by decide), by decide⟩
  have htwo : IsLength "2" 2 :=
    ⟨['2'], by decide, List.all_eq_true.mp rfl, .inl (by decide), by decide⟩
  have hone : IsLength "1" ("àèì".length - 2) :=
    ⟨['1'], by decide, List.all_eq_true.mp rfl, .inl (by decide), by decide⟩
  obtain ⟨hpadded, -, hwhole, -, -⟩ := padding_and_cutting "àèì" " +05"
  obtain ⟨-, hsplit, -, -, -⟩ := padding_and_cutting "àèì" "2"
  obtain ⟨-, -, -, hwide, -⟩ := padding_and_cutting "àèì" "65537"
  obtain ⟨-, -, -, -, hlong⟩ := padding_and_cutting "àèì" "3000000000"
  exact ⟨hpadded 5 (by decide) hfive,
    hsplit 2 "1" htwo hone (by decide) (by decide) (by decide),
    hwhole 5 hfive (by decide) (by decide),
    hwide (not_isLength_of_readLength "" (by decide) (by decide +kernel)),
    hlong (not_isLength_of_readLength "" (by decide) (by decide +kernel))⟩

end Function

end ReportDesk.Formula
