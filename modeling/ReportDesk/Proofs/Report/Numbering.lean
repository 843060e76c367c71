import Mathlib.Logic.Function.Iterate
import ReportDesk.Proofs.Report.Lifecycle

/-!
# The numbers of versions

A version with a number is followed by the one with the next number, so that
versions that follow one another ascend.  An aggregator has the greatest number
among its reports, where a text that is no number counts as zero.
-/

namespace ReportDesk.Report

/-! ## Versions that follow one another -/

namespace Version

variable {version : String} {n j : Nat}

private theorem two_le_length_ofNumber (n : Nat) : 2 ≤ (ofNumber n).length := by
  have hlength : (ofNumber n).length = 2 - n.repr.length + n.repr.length := by
    simp [ofNumber, Numeral.padded]
  omega

private theorem isAmendment_of_number? (h : number? version = some n)
    (hpos : 0 < n) :
    isAmendment version = true := by
  simp [isAmendment, h, hpos]

theorem number?_next (h : number? version = some n)
    (hnext : n + 1 < Numeral.word32) :
    number? (next version) = some (n + 1) := by
  rw [next, h]
  exact number?_ofNumber hnext

private theorem number?_iterate_next (h : number? version = some n)
    (hlast : n + j < Numeral.word32) :
    number? (next^[j] version) = some (n + j) := by
  induction j with
  | zero => exact h
  | succ j ih =>
      have hbefore : number? (next^[j] version) = some (n + j) := ih (by omega)
      rw [Function.iterate_succ_apply']
      exact number?_next hbefore hlast

end Version

/-! ## The version of an aggregator -/

variable {reports : List Report}

private theorem max?_numbers (hne : reports ≠ []) :
    (reports.map fun r => (Version.number? r.version).getD 0).max? =
      some (Aggregator.highestVersion reports) := by
  have hle : ∀ c ∈ reports,
      (Version.number? c.version).getD 0 ≤
        Aggregator.highestVersion reports := by
    intro c hc
    cases hnumber : Version.number? c.version with
    | none => exact Nat.zero_le _
    | some m => exact le_highestVersion hc hnumber
  rw [List.max?_eq_some_iff, List.mem_map, List.forall_mem_map]
  refine ⟨?_, hle⟩
  rcases highestVersion_attained reports with hzero | ⟨c, hc, hnumber⟩
  · -- no report has a number above zero, and there is a report
    obtain ⟨first, hfirst⟩ := List.exists_mem_of_ne_nil reports hne
    refine ⟨first, hfirst, ?_⟩
    have := hle first hfirst
    omega
  · exact ⟨c, hc, by rw [hnumber, Option.getD_some]⟩

private theorem highestVersion_pos_iff :
    0 < Aggregator.highestVersion reports ↔
      ∃ r ∈ reports, r.isAmendment = true := by
  constructor
  · intro hpos
    rcases highestVersion_attained reports with hzero | ⟨r, hr, hnumber⟩
    · omega
    · exact ⟨r, hr, isAmendment_iff.mpr ⟨_, hnumber, hpos⟩⟩
  · rintro ⟨r, hr, hamendment⟩
    obtain ⟨n, hnumber, hpos⟩ := isAmendment_iff.mp hamendment
    exact Nat.lt_of_lt_of_le hpos (le_highestVersion hr hnumber)

theorem isAmendment_aggregatorFor_iff (s : Shelf) (reports : List Report)
    (first : Report) :
    (s.aggregatorFor reports first).isAmendment = true ↔
      ∃ r ∈ reports, r.isAmendment = true := by
  rw [isAmendment_iff, number?_aggregatorFor, ← highestVersion_pos_iff]
  simp

/--
The version after one with a number has the next number as long as that is one
of 32 bits.  It is an amendment of at least two characters, and versions that
follow one another ascend.  The aggregator of reports of one collection is
stored with the greatest of their numbers, and is an amendment exactly when one
of them is.
-/
theorem Version.numbers_ascend :
    (∀ version n, number? version = some n → n < Numeral.word32 - 1 →
      number? (next version) = some (n + 1) ∧
        isAmendment (next version) = true ∧
        2 ≤ (next version).length) ∧
    (∀ version n, number? version = some n → ∀ i j,
        i < j → n + j < Numeral.word32 →
      ∃ a b, number? (next^[i] version) = some a ∧
        number? (next^[j] version) = some b ∧
        a < b) ∧
    ∀ (repository : Repository) (reports : List Report) (dc : String),
        reports ≠ [] →
      (∀ r ∈ reports, r.dataCollection = dc) →
      ∃ aggregator id later,
        Aggregator.create repository reports = .ok (aggregator, later) ∧
        later.get? id = some aggregator ∧
        number? aggregator.version =
          (reports.map fun r => (number? r.version).getD 0).max? ∧
        (aggregator.isAmendment = true ↔ ∃ r ∈ reports,
          r.isAmendment = true) := by
  refine ⟨fun version n h hn => ?_, fun version n h i j hij hj => ?_,
    fun repository reports dc hne hdc => ?_⟩
  · have hnext : number? (next version) = some (n + 1) :=
      number?_next h (by omega)
    exact ⟨hnext, isAmendment_of_number? hnext (Nat.succ_pos n),
      two_le_length_ofNumber _⟩
  · exact ⟨n + i, n + j, number?_iterate_next h (by omega),
      number?_iterate_next h hj, by omega⟩
  · obtain ⟨first, rest, rfl⟩ := List.exists_cons_of_ne_nil hne
    have hfirst : first.dataCollection = dc := hdc first List.mem_cons_self
    have hsame : ∀ r ∈ first :: rest, r.dataCollection = first.dataCollection :=
      fun r hr => (hdc r hr).trans hfirst.symm
    have hstored :
        (repository.withNewAggregator (first :: rest) first).shelf.slot
        (repository.shelf.last + 1) =
          some (repository.shelf.aggregatorFor (first :: rest) first) := by
      rw [Repository.shelf_withNewAggregator, Shelf.slot_put_self]
    refine ⟨_, _, _, Aggregator.create_of_one_collection repository hsame,
      hstored, ?_, isAmendment_aggregatorFor_iff _ _ _⟩
    rw [number?_aggregatorFor, max?_numbers hne]

/-- Blanks, a sign and zeros in front do not matter; a word counts as zero. -/
theorem Version.numbers_ascend_padded :
    let reports := ["word", "", " +7 "].map fun version =>
      (amendment "A").setText Columns.version version
    number? " +099 " = some 99 ∧
      (number? (next " +099 ") = some 100 ∧ isAmendment (next " +099 ") = true ∧
        2 ≤ (next " +099 ").length) ∧
      (∃ a b, number? (next^[1] " +099 ") = some a ∧
          number? (next^[3] " +099 ") = some b ∧
        a < b) ∧
      ∃ aggregator id later,
          Aggregator.create .empty reports = .ok (aggregator, later) ∧
        later.get? id = some aggregator ∧ number? aggregator.version = some 7 ∧
        aggregator.isAmendment = true := by
  intro reports
  have hnumber : number? " +099 " = some 99 := by decide +kernel
  have hdc : ∀ r ∈ reports, r.dataCollection = "BSI" := by decide +kernel
  have hmax : (reports.map fun r => (number? r.version).getD 0).max? =
      some 7 := by
    decide +kernel
  have hamendment : ∃ r ∈ reports, r.isAmendment = true := by decide +kernel
  obtain ⟨hnext, hascend, haggregator⟩ := Version.numbers_ascend
  obtain ⟨aggregator, id, later, hcreate, hstored, hversion, hiff⟩ :=
    haggregator .empty reports "BSI" (List.cons_ne_nil _ _) hdc
  exact ⟨hnumber, hnext _ _ hnumber (by decide),
    hascend _ _ hnumber 1 3 (by decide) (by decide), aggregator, id, later,
    hcreate, hstored, hversion.trans hmax, hiff.mpr hamendment⟩

end ReportDesk.Report
