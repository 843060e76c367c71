import Mathlib.Data.List.TakeWhile
import ReportDesk.Text.Character

/-!
# Trimming

Trimming leaves a text alone whose ends are not blank, and a trimmed text has
such ends.
-/

namespace ReportDesk.Text

private theorem dropWhile_eq_self {p : Char → Bool} {cs : List Char}
    (h : ∀ c, cs.head? = some c → p c = false) : cs.dropWhile p = cs := by
  cases cs with
  | nil => rfl
  | cons c cs => rw [List.dropWhile_cons_of_neg (by simp [h c rfl])]

theorem trimChars_eq_self {cs : List Char}
    (hfirst : ∀ c, cs.head? = some c → isBlank c = false)
    (hlast : ∀ c, cs.getLast? = some c → isBlank c = false) :
    trimChars cs = cs := by
  rw [trimChars, trimEndChars, dropWhile_eq_self hfirst, dropWhile_eq_self]
  · exact List.reverse_reverse cs
  · intro c hc
    rw [List.head?_reverse] at hc
    exact hlast c hc

private theorem length_trimEndChars_le (cs : List Char) :
    (trimEndChars cs).length ≤ cs.length := by
  have hsuffix := List.dropWhile_suffix (l := cs.reverse) isBlank
  simpa [trimEndChars] using hsuffix.length_le

theorem not_blank_of_head?_of_trimChars {cs : List Char} (h : trimChars cs = cs)
    {c : Char} (hc : cs.head? = some c) : isBlank c = false := by
  cases cs with
  | nil => cases hc
  | cons d cs =>
      obtain rfl := Option.some.inj hc
      by_contra hblank
      rw [Bool.not_eq_false] at hblank
      rw [trimChars, List.dropWhile_cons_of_pos hblank] at h
      have hshort := length_trimEndChars_le (cs.dropWhile isBlank)
      have hdrop := (List.dropWhile_suffix (l := cs) isBlank).length_le
      rw [h, List.length_cons] at hshort
      omega

theorem trimChars_append_of_blank_left {blank : List Char}
    (h : ∀ c ∈ blank, isBlank c = true)
    (cs : List Char) : trimChars (blank ++ cs) = trimChars cs := by
  rw [trimChars, trimChars, List.dropWhile_append_of_pos h]

theorem trimChars_append_of_blank_right {blank : List Char}
    (h : ∀ c ∈ blank, isBlank c = true)
    (cs : List Char) : trimChars (cs ++ blank) = trimChars cs := by
  rw [trimChars, trimChars, List.dropWhile_append]
  split
  next hempty =>
      rw [List.isEmpty_iff] at hempty
      rw [hempty, List.dropWhile_eq_nil_iff.mpr h]
  next =>
      rw [trimEndChars, trimEndChars, List.reverse_append,
        List.dropWhile_append_of_pos]
      exact fun c hc => h c (List.mem_reverse.mp hc)

private theorem dropWhile_word {word : List Char} (hne : word ≠ [])
    (h : ∀ c ∈ word, isBlank c = false) (rest : List Char) :
    (word ++ rest).dropWhile isBlank = word ++ rest := by
  obtain ⟨first, tail, rfl⟩ := List.exists_cons_of_ne_nil hne
  exact List.dropWhile_cons_of_neg (by simp [h first List.mem_cons_self])

theorem trimChars_around {word : List Char} (hne : word ≠ [])
    (h : ∀ c ∈ word, isBlank c = false) (before after : List Char) :
    trimChars (before ++ word ++ after) =
      before.dropWhile isBlank ++ word ++ trimEndChars after := by
  have hleft : (before ++ word ++ after).dropWhile isBlank =
      before.dropWhile isBlank ++ word ++ after := by
    rw [List.append_assoc, List.dropWhile_append]
    split
    next hempty =>
        rw [List.isEmpty_iff] at hempty
        rw [hempty, dropWhile_word hne h]
        rfl
    next => rw [List.append_assoc]
  rw [trimChars, hleft, trimEndChars, List.reverse_append,
    List.dropWhile_append]
  split
  next hempty =>
      rw [List.isEmpty_iff] at hempty
      rw [trimEndChars, hempty, List.reverse_append,
        dropWhile_word (by simpa using hne) fun c hc =>
          h c (List.mem_reverse.mp hc)]
      simp
  next => simp [trimEndChars]

theorem trimChars_of_not_blank {cs : List Char}
    (h : ∀ c ∈ cs, isBlank c = false) :
    trimChars cs = cs :=
  trimChars_eq_self (fun c hc => h c (List.mem_of_mem_head? hc))
    fun c hc => h c (List.mem_of_mem_getLast? hc)

theorem isBlank_of_isDigit {c : Char} (h : c.isDigit = true) :
    isBlank c = false := by
  simp only [Char.isDigit, Bool.and_eq_true, decide_eq_true_eq] at h
  obtain ⟨hge, hle⟩ := h
  have hge' : 48 ≤ c.toNat := hge
  have hle' : c.toNat ≤ 57 := hle
  simp only [isBlank, Bool.or_eq_false_iff, Bool.and_eq_false_iff,
    decide_eq_false_iff_not, beq_eq_false_iff_ne]
  omega

end ReportDesk.Text
