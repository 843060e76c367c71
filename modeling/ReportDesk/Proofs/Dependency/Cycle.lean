import Mathlib.Data.List.Chain
import ReportDesk.Proofs.Dependency.Session

/-!
# Cycles of references

A count fails exactly when the column asked for leads to a cycle, and the path
reported is a walk that ends where it first meets a column again.  The search
never goes deeper than there are columns, so its bound is never felt.
-/

namespace ReportDesk.Formula

variable {schema : Schema} {header : String}

def LeadsToCycle (schema : Schema) (header column : String) : Prop :=
  ∃ other, Relation.ReflTransGen (Needs schema header) column other ∧
    Relation.TransGen (Needs schema header) other other

/--
A walk over needs, from the column on, to the first column that it meets again.
-/
structure ClosesCycle (schema : Schema) (header column : String)
    (path : List String) : Prop where
  starts : path.head? = some column
  follows : path.IsChain (Needs schema header)
  distinct : path.dropLast.Nodup
  returns : ∃ last ∈ path.dropLast, path.getLast? = some last

theorem ClosesCycle.leadsToCycle {column : String} {path : List String}
    (h : ClosesCycle schema header column path) :
    LeadsToCycle schema header column := by
  obtain ⟨last, hlast, hend⟩ := h.returns
  obtain ⟨walked, rfl⟩ := List.getLast?_eq_some_iff.mp hend
  have hmem : last ∈ walked := by simpa using hlast
  have hleads : (walked ++ [last]).Pairwise
      (Relation.TransGen (Needs schema header)) :=
    (h.follows.imp fun _ _ hneeds => .single hneeds).pairwise
  have hback : ∀ passed ∈ walked,
      Relation.TransGen (Needs schema header) passed last := by
    intro passed hpassed
    exact (List.pairwise_append.mp hleads).2.2 passed hpassed last
      (List.mem_singleton_self last)
  have hfirst : column ∈ walked := by
    have hstarts := h.starts
    cases walked with
    | nil => simp at hmem
    | cons first rest => simp_all
  exact ⟨last, (hback column hfirst).to_reflTransGen, hback last hmem⟩

theorem Weighs.not_leadsToCycle {column : String} {n : Nat}
    (h : Weighs schema header column n) :
    ¬LeadsToCycle schema header column := by
  rintro ⟨other, hleads, hcycle⟩
  rcases Relation.reflTransGen_iff_eq_or_transGen.mp hleads with rfl | hleads
  · exact h.not_leads_self hcycle
  · obtain ⟨m, hm, -⟩ := h.lt_of_leads hleads
    exact hm.not_leads_self hcycle

/-! ## Walks -/

structure Walk (schema : Schema) (header first : String) (path : List String)
    (column : String) : Prop where
  trail : Trail schema header path column
  starts : (path ++ [column]).head? = some first
  follows : (path ++ [column]).IsChain (Needs schema header)

theorem Walk.start (schema : Schema) (header column : String) :
    Walk schema header column [] column :=
  ⟨.start schema header column, rfl, by simp⟩

theorem Walk.extend {first : String} {path : List String} {column : String}
    {other : Column} (h : Walk schema header first path column)
    (hfresh : column ∉ path) (hother : other ∈ needed schema header column) :
    Walk schema header first (path ++ [column]) other.id := by
  refine ⟨h.trail.extend hfresh hother, ?_, ?_⟩
  · rw [List.head?_append, h.starts]
    rfl
  · apply List.isChain_append.mpr
    refine ⟨h.follows, by simp, ?_⟩
    have hneeds : Needs schema header column other.id := ⟨other, hother, rfl⟩
    simpa using hneeds

theorem Walk.closesCycle {first : String} {path : List String} {column : String}
    (h : Walk schema header first path column) (hclosed : column ∈ path) :
    ClosesCycle schema header first (path ++ [column]) := by
  refine ⟨h.starts, h.follows, ?_, column, ?_, by simp⟩
  · simpa using h.trail.nodup
  · simpa using hclosed

/-! ## What a failure reports -/

private theorem addReferences_eq_error
    {visit : Counts → String → Except Error Nat × Counts}
    {column formula : String} {columns : List Column} {total : Nat}
    {counts : Counts} {error : Error}
    (h : (addReferences visit column formula columns total counts).1 =
      .error error) :
    ∃ other ∈ columns, ∃ known, (visit known other.id).1 = .error error := by
  induction columns generalizing total counts with
  | nil => simp [addReferences] at h
  | cons other rest ih =>
      have hlater {total : Nat} {counts : Counts}
          (h : (addReferences visit column formula rest total counts).1 =
            .error error) :
          ∃ failed ∈ other :: rest, ∃ known,
            (visit known failed.id).1 = .error error := by
        obtain ⟨failed, hmem, hfailed⟩ := ih h
        exact ⟨failed, List.mem_cons_of_mem _ hmem, hfailed⟩
      rw [addReferences] at h
      split at h
      · exact hlater h
      · rcases hvisit : visit counts other.id with ⟨result, later⟩
        rw [hvisit] at h
        cases result with
        | ok below => exact hlater h
        | error failure =>
            exact ⟨other, List.mem_cons_self, counts, by rw [hvisit, h]⟩

private theorem lookup_eq_none_of_error {depth : Nat} {path : List String}
    {column : String} {counts : Counts} {error : Error}
    (h : (countFrom schema header depth path counts column).1 = .error error) :
    counts.lookup (column, header) = none := by
  cases hlookup : counts.lookup (column, header) with
  | none => rfl
  | some count => cases depth <;> simp [countFrom, hlookup] at h

private theorem countFrom_closed (depth : Nat) {path : List String}
    {column : String} {counts : Counts}
    (hunknown : counts.lookup (column, header) = none)
    (hclosed : column ∈ path) :
    countFrom schema header depth path counts column =
      (.error (.cyclicDependency schema.sheetName (path ++ [column])),
        counts) := by
  cases depth <;> simp [countFrom, hunknown, hclosed]

theorem countFrom_eq_error (depth : Nat) {first : String} {path : List String}
    {column : String} {counts : Counts} {error : Error}
    (hwalk : Walk schema header first path column)
    (hdepth : schema.columns.length + 1 ≤ depth + path.length)
    (h : (countFrom schema header depth path counts column).1 = .error error) :
    ∃ reported, error = .cyclicDependency schema.sheetName reported ∧
      ClosesCycle schema header first reported := by
  -- the depth shrinks as the walk grows
  induction depth generalizing path column counts with
  | zero =>
      have hclosed : column ∈ path := hwalk.trail.closed (by omega)
      rw [countFrom_closed 0 (lookup_eq_none_of_error h) hclosed] at h
      cases h
      exact ⟨path ++ [column], rfl, hwalk.closesCycle hclosed⟩
  | succ depth ih =>
      have hunknown := lookup_eq_none_of_error h
      by_cases hclosed : column ∈ path
      · rw [countFrom_closed (depth + 1) hunknown hclosed] at h
        cases h
        exact ⟨path ++ [column], rfl, hwalk.closesCycle hclosed⟩
      · rw [countFrom_open depth hunknown hclosed] at h
        obtain ⟨other, hother, known, hfailed⟩ := addReferences_eq_error h
        apply ih (hwalk.extend hclosed hother) _ hfailed
        simp
        omega

/-! ## The bound on the depth -/

private theorem addReferences_eq_of_visits
    {visit visit' : Counts → String → Except Error Nat × Counts}
    {column formula : String} {columns : List Column} (h : ∀ other ∈ columns,
      ¬(other.id = column ∨ countReferences formula other.id = 0) →
      ∀ known, visit known other.id = visit' known other.id) (total : Nat)
    (counts : Counts) :
    addReferences visit column formula columns total counts =
      addReferences visit' column formula columns total counts := by
  induction columns generalizing total counts with
  | nil => rfl
  | cons other rest ih =>
      rw [List.forall_mem_cons] at h
      by_cases hpassed : other.id = column ∨
        countReferences formula other.id = 0
      · simp [addReferences, hpassed, ih h.2]
      · simp [addReferences, hpassed, h.1 hpassed, ih h.2]

theorem countFrom_succ (depth : Nat) {path : List String} {column : String}
    (htrail : Trail schema header path column)
    (hdepth : schema.columns.length + 1 ≤ depth + path.length)
    (counts : Counts) :
    countFrom schema header (depth + 1) path counts column =
      countFrom schema header depth path counts column := by
  induction depth generalizing path column counts with
  | zero =>
      have hclosed : column ∈ path := htrail.closed (by omega)
      simp [countFrom, hclosed]
  | succ depth ih =>
      by_cases hclosed : column ∈ path
      · simp [countFrom, hclosed]
      · have hvisits :
            addReferences
            (countFrom schema header (depth + 1) (path ++ [column]))
              column (schema.formula column header) schema.columns 0 counts =
            addReferences (countFrom schema header depth (path ++ [column]))
              column (schema.formula column header) schema.columns 0
                counts := by
          apply addReferences_eq_of_visits
          intro other hother hcounted known
          have hneeded : other ∈ needed schema header column := by
            simpa [needed, hother] using hcounted
          apply ih (htrail.extend hclosed hneeded)
          simp
          omega
        rw [countFrom, hvisits, ← countFrom]

private theorem countFrom_eq_countDependencies {depth : Nat}
    (hdepth : schema.columns.length < depth) (known : Counts)
    (column : String) :
    countFrom schema header depth [] known column =
      countDependencies schema header known column := by
  induction depth, hdepth using Nat.le_induction with
  | base => rfl
  | succ depth hdepth ih =>
      rw [countFrom_succ depth (.start schema header column)
        (by simpa using hdepth), ih]

/-! ## When a count fails -/

theorem countDependencies_eq_error {known : Counts} {column : String}
    {error : Error}
    (h : (countDependencies schema header known column).1 = .error error) :
    ∃ path, error = .cyclicDependency schema.sheetName path ∧
      ClosesCycle schema header column path :=
  countFrom_eq_error _ (.start schema header column) (by simp) h

theorem countDependencies_fails_iff {known : Counts} (h : Faithful schema known)
    (column : String) :
    (∃ path, (countDependencies schema header known column).1 =
      .error (.cyclicDependency schema.sheetName path)) ↔
        LeadsToCycle schema header column := by
  constructor
  · rintro ⟨path, hpath⟩
    obtain ⟨reported, -, hcycle⟩ := countDependencies_eq_error hpath
    exact hcycle.leadsToCycle
  · intro hcycle
    cases hcount : (countDependencies schema header known column).1 with
    | ok n =>
        have hweighs := (countDependencies_eq_ok_iff h column n).mp hcount
        exact absurd hcycle hweighs.not_leadsToCycle
    | error error =>
        obtain ⟨path, rfl, -⟩ := countDependencies_eq_error hcount
        exact ⟨path, rfl⟩

private theorem weighs_zero {column : String}
    (h : ∀ other ∈ schema.columns, other.id ≠ column →
      countReferences (schema.formula column header) other.id = 0) :
    Weighs schema header column 0 := by
  have hnone : needed schema header column = [] := by
    simp only [needed, List.filter_eq_nil_iff, decide_eq_true_eq, not_not]
    intro other hother
    exact or_iff_not_imp_left.mpr (h other hother)
  have hweighs :
      Weighs schema header column
        (weightOver (schema.formula column header) (fun _ => 0)
          (needed schema header column)) :=
    .intro _ (by simp [hnone])
  simpa [hnone, weightOver] using hweighs

namespace Session

/--
In every state of the memory a count ends, at a depth that no bound above the
number of columns changes.  It fails exactly when the column leads to a cycle,
and then names the walk into the cycle; a formula that refers to no column but
its own counts nothing.
-/
theorem count_fails_iff_leadsToCycle {session : Session} (h : session.Reachable)
    (hschema : schema ∈ session.schemas) (column header : String) :
    (∀ depth, schema.columns.length < depth →
        countFrom schema header depth [] (session.cache.known schema) column =
          countDependencies schema header (session.cache.known schema) column) ∧
      ((∃ path, (session.cache.count schema column header).1 =
          .error (.cyclicDependency schema.sheetName path)) ↔
        LeadsToCycle schema header column) ∧
      (∀ error, (session.cache.count schema column header).1 = .error error →
        ∃ path, error = .cyclicDependency schema.sheetName path ∧
          ClosesCycle schema header column path) ∧
      ((∀ other ∈ schema.columns, other.id ≠ column →
          countReferences (schema.formula column header) other.id = 0) →
        (session.cache.count schema column header).1 = .ok 0) := by
  have hknown := h.consistent.known_faithful hschema
  refine ⟨?_, ?_, ?_, ?_⟩
  · intro depth hdepth
    exact countFrom_eq_countDependencies hdepth _ column
  · exact countDependencies_fails_iff hknown column
  · intro error herror
    exact countDependencies_eq_error herror
  · intro hself
    exact (countDependencies_eq_ok_iff hknown column 0).mpr (weighs_zero hself)

/--
After a failed count for another definition, the cycle below `c` is still found.
-/
theorem count_fails_iff_leadsToCycle_switched :
    switched.Reachable ∧ cyclicDefinition ∈ switched.schemas ∧
      LeadsToCycle cyclicDefinition Header.defaultValue "c" ∧
      ClosesCycle cyclicDefinition Header.defaultValue "c" ["c", "d", "c"] := by
  have hmem : cyclicDefinition ∈ switched.schemas :=
    List.mem_cons_of_mem _ List.mem_cons_self
  have hcount :
      (switched.cache.count cyclicDefinition "c" Header.defaultValue).1 =
      .error (.cyclicDependency "T" ["c", "d", "c"]) := by
    decide +kernel
  obtain ⟨-, hiff, hpath, -⟩ :=
    count_fails_iff_leadsToCycle reachable_switched hmem "c" Header.defaultValue
  refine ⟨reachable_switched, hmem, hiff.mp ⟨_, hcount⟩, ?_⟩
  obtain ⟨path, herror, hcloses⟩ := hpath _ hcount
  cases herror
  exact hcloses

end Session

end ReportDesk.Formula
