import ReportDesk.Proofs.Dependency.Counting

/-!
# Counting in a session

A session defines, loads and copies schemas and asks one memory for counts,
in any order.  Revisions tell the definitions apart, so the memory never
answers for one definition with the counts of another: it answers as a memory
without any counts would.
-/

namespace ReportDesk.Formula

/--
The registry, every definition handed out so far, and the memory of counts.
One registry stands for all, which share the numbering of revisions.
-/
structure Session where
  registry : Registry
  schemas : List Schema
  cache : DependencyCache

namespace Session

def start : Session := ⟨.empty, [], .empty⟩

inductive Step : Session → Session → Prop
  | define {session : Session} {schema : Schema} {registry : Registry}
      (sheetName : String) (columns : List Column)
      (h : session.registry.define sheetName columns = .ok (schema, registry)) :
      Step session
        { session with registry, schemas := schema :: session.schemas }
  | load {session : Session} {schema : Schema} (h : schema ∈ session.schemas) :
      Step session { session with
        registry := (session.registry.load schema).2
        schemas := (session.registry.load schema).1 :: session.schemas }
  | fetch {session : Session} {schema : Schema} (name : String)
      (h : session.registry.get name = .ok schema) :
      Step session { session with schemas := schema :: session.schemas }
  | clone {session : Session} {schema : Schema} (h : schema ∈ session.schemas) :
      Step session { session with schemas := schema :: session.schemas }
  | count {session : Session} {schema : Schema} (h : schema ∈ session.schemas)
      (column header : String) :
      Step session
        { session with cache := (session.cache.count schema column header).2 }
  | dropTable {session : Session} (table : String) :
      Step session { session with cache := session.cache.dropTable table }
  | clear {session : Session} : Step session { session with cache := .empty }

/-- Looking up a known count changes nothing, so it is no step. -/
inductive Reachable : Session → Prop
  | start : Reachable start
  | step {session later : Session} (h : Reachable session)
      (hstep : Step session later) :
      Reachable later

/-! ## What every step keeps -/

structure Consistent (session : Session) : Prop where
  revisions : ∀ schema ∈ session.schemas,
    schema.revision ≤ session.registry.lastRevision
  unique : ∀ schema ∈ session.schemas, ∀ schema' ∈ session.schemas,
    schema.revision = schema'.revision → schema = schema'
  loaded : ∀ name schema, session.registry.schemas.get? name = some schema →
    schema ∈ session.schemas
  counts : ∀ name table, session.cache.tables.get? name = some table →
    ∃ schema ∈ session.schemas, schema.sheetName = name ∧
      schema.revision = table.revision ∧ Faithful schema table.counts

variable {session later : Session} {schema : Schema}

theorem consistent_start : Consistent start := by
  refine ⟨?_, ?_, ?_, ?_⟩
  · intro schema h
    cases h
  · intro schema h
    cases h
  · intro name schema h
    cases h
  · intro name table h
    cases h

theorem Consistent.known_faithful (h : session.Consistent)
    (hschema : schema ∈ session.schemas) :
    Faithful schema (session.cache.known schema) := by
  unfold DependencyCache.known
  split
  next table htable =>
    split
    next hrevision =>
      obtain ⟨owner, howner, -, hsame, hcounts⟩ := h.counts _ table htable
      rw [h.unique schema hschema owner howner
        (hrevision.symm.trans hsame.symm)]
      exact hcounts
    next => exact faithful_nil schema
  next => exact faithful_nil schema

private theorem Consistent.add (h : session.Consistent) {registry : Registry}
    (hfresh : schema.revision = session.registry.lastRevision + 1)
    (hlast : registry.lastRevision = schema.revision)
    (hloaded : ∀ name loaded, registry.schemas.get? name = some loaded →
      loaded = schema ∨ session.registry.schemas.get? name = some loaded) :
    Consistent
      { session with registry, schemas := schema :: session.schemas } := by
  refine ⟨?_, ?_, ?_, ?_⟩
  · intro other hother
    rcases List.mem_cons.mp hother with rfl | hother
    · exact hlast.ge
    · have := h.revisions other hother
      simp only
      omega
  · intro one hone two htwo hrevision
    rcases List.mem_cons.mp hone with rfl | hone <;>
      rcases List.mem_cons.mp htwo with htwo | htwo
    · exact htwo.symm
    · have := h.revisions two htwo
      omega
    · have := h.revisions one hone
      rw [htwo] at hrevision
      omega
    · exact h.unique one hone two htwo hrevision
  · intro name loaded hget
    rcases hloaded name loaded hget with rfl | hget
    · exact List.mem_cons_self
    · exact List.mem_cons_of_mem _ (h.loaded name loaded hget)
  · intro name table htable
    obtain ⟨owner, howner, hrest⟩ := h.counts name table htable
    exact ⟨owner, List.mem_cons_of_mem _ howner, hrest⟩

private theorem Consistent.copy (h : session.Consistent)
    (hschema : schema ∈ session.schemas) :
    Consistent { session with schemas := schema :: session.schemas } := by
  have hsub : ∀ other ∈ schema :: session.schemas, other ∈ session.schemas := by
    intro other hother
    rcases List.mem_cons.mp hother with rfl | hother
    · exact hschema
    · exact hother
  refine ⟨fun other hother => h.revisions other (hsub other hother),
    fun one hone two htwo => h.unique one (hsub one hone) two (hsub two htwo),
    fun name loaded hget => List.mem_cons_of_mem _ (h.loaded name loaded hget),
      ?_⟩
  intro name table htable
  obtain ⟨owner, howner, hrest⟩ := h.counts name table htable
  exact ⟨owner, List.mem_cons_of_mem _ howner, hrest⟩

theorem Consistent.count (h : session.Consistent)
    (hschema : schema ∈ session.schemas) (column header : String) :
    Consistent
      { session with cache :=
          (session.cache.count schema column header).2 } := by
  refine ⟨h.revisions, h.unique, h.loaded, ?_⟩
  intro name table htable
  change (session.cache.tables.insert schema.sheetName _).get? name =
    some table at htable
  by_cases hname : name = schema.sheetName
  · subst hname
    rw [SortedMap.get?_insert_self] at htable
    cases htable
    exact ⟨schema, hschema, rfl, rfl,
      countDependencies_faithful (h.known_faithful hschema) column⟩
  · rw [SortedMap.get?_insert_of_ne _ _ hname] at htable
    exact h.counts name table htable

theorem Consistent.define (h : session.Consistent) {registry : Registry}
    {sheetName : String} {columns : List Column}
    (hdefine : session.registry.define sheetName columns =
      .ok (schema, registry)) :
    Consistent
      { session with registry, schemas := schema :: session.schemas } := by
  unfold Registry.define Schema.build at hdefine
  split at hdefine
  next built hbuild =>
    split at hbuild
    next =>
      cases hbuild
      cases hdefine
      exact h.add rfl rfl fun name loaded hget => .inr hget
    next => cases hbuild
  next => cases hdefine

theorem Consistent.load (h : session.Consistent) (schema : Schema) :
    Consistent { session with
      registry := (session.registry.load schema).2
      schemas := (session.registry.load schema).1 :: session.schemas } := by
  refine h.add rfl rfl fun name loaded hget => ?_
  change (session.registry.schemas.insert schema.sheetName
    (session.registry.load schema).1).get? name = some loaded at hget
  by_cases hname : name = schema.sheetName
  · rw [hname, SortedMap.get?_insert_self] at hget
    exact .inl (Option.some.inj hget).symm
  · rw [SortedMap.get?_insert_of_ne _ _ hname] at hget
    exact .inr hget

theorem Consistent.fetch (h : session.Consistent) {name : String}
    (hget : session.registry.get name = .ok schema) :
    schema ∈ session.schemas := by
  exact h.loaded name schema (Registry.get_eq_ok_iff.mp hget)

theorem Consistent.dropTable (h : session.Consistent) (table : String) :
    Consistent { session with cache := session.cache.dropTable table } := by
  refine ⟨h.revisions, h.unique, h.loaded, ?_⟩
  intro name counts hget
  change (session.cache.tables.erase table).get? name = some counts at hget
  by_cases hname : name = table
  · rw [hname, SortedMap.get?_erase_self] at hget
    cases hget
  · rw [SortedMap.get?_erase_of_ne _ hname] at hget
    exact h.counts name counts hget

theorem Consistent.clear (h : session.Consistent) :
    Consistent { session with cache := .empty } := by
  refine ⟨h.revisions, h.unique, h.loaded, ?_⟩
  intro name counts hget
  cases hget

theorem Consistent.step (h : session.Consistent) (hstep : Step session later) :
    later.Consistent := by
  cases hstep with
  | define sheetName columns hdefine => exact h.define hdefine
  | load hschema => exact h.load _
  | fetch name hget => exact h.copy (h.fetch hget)
  | clone hschema => exact h.copy hschema
  | count hschema column header => exact h.count hschema column header
  | dropTable table => exact h.dropTable table
  | clear => exact h.clear

theorem Reachable.consistent (h : session.Reachable) : session.Consistent := by
  induction h with
  | start => exact consistent_start
  | step _ hstep ih => exact ih.step hstep

/-! ## The memory answers as an empty one -/

theorem count_eq_fresh (h : session.Reachable)
    (hschema : schema ∈ session.schemas) (column header : String) :
    (session.cache.count schema column header).1 =
        (DependencyCache.empty.count schema column header).1 ∧
      ∀ n, session.cache.get? schema column header = some n →
        (DependencyCache.empty.count schema column header).1 = .ok n := by
  have hknown := h.consistent.known_faithful hschema
  constructor
  · exact countDependencies_congr hknown (faithful_nil schema) column
  · intro n hn
    exact (countDependencies_eq_ok_iff (faithful_nil schema) column n).mpr
      (hknown column header n hn)

/-! ### A table defined twice -/

def column (id formula : String) : Column :=
  ⟨id, none, .ofList [(Header.defaultValue, formula)]⟩

def cyclicDefinition : Schema where
  sheetName := "T"
  columns :=
    [column "a" "x", column "b" "%a.code", column "c" "%b.label%d.code",
    column "d" "%a.code%c.code"]
  revision := 1
  faultless := by decide

def plainDefinition : Schema where
  sheetName := "T"
  columns := [column "a" "%b.code", column "b" "x"]
  revision := 2
  faultless := by decide

def switched : Session where
  registry := ⟨.empty, 2⟩
  schemas := [plainDefinition, cyclicDefinition]
  cache :=
    ((DependencyCache.empty.count cyclicDefinition "c"
      Header.defaultValue).2.count plainDefinition "a" Header.defaultValue).2

theorem reachable_switched : switched.Reachable := by
  have hcyclic : Reachable ⟨⟨.empty, 1⟩, [cyclicDefinition], .empty⟩ :=
    .step .start (.define "T" cyclicDefinition.columns rfl)
  have hboth : Reachable
      ⟨⟨.empty, 2⟩, [plainDefinition, cyclicDefinition], .empty⟩ :=
    .step hcyclic (.define "T" plainDefinition.columns rfl)
  have hfailed := hboth.step
    (.count (List.mem_cons_of_mem _ List.mem_cons_self) "c" Header.defaultValue)
  exact hfailed.step (.count List.mem_cons_self "a" Header.defaultValue)

theorem count_eq_fresh_switched :
    switched.Reachable ∧ cyclicDefinition ∈ switched.schemas ∧
      (switched.cache.count cyclicDefinition "c" Header.defaultValue).1 =
        (DependencyCache.empty.count cyclicDefinition "c"
          Header.defaultValue).1 ∧
      ∀ n, switched.cache.get? cyclicDefinition "c" Header.defaultValue =
          some n →
        (DependencyCache.empty.count cyclicDefinition "c"
          Header.defaultValue).1 = .ok n := by
  have hmem : cyclicDefinition ∈ switched.schemas :=
    List.mem_cons_of_mem _ List.mem_cons_self
  exact ⟨reachable_switched, hmem,
    count_eq_fresh reachable_switched hmem "c" Header.defaultValue⟩

example :
    (switched.cache.count cyclicDefinition "c" Header.defaultValue).1 =
      .error (.cyclicDependency "T" ["c", "d", "c"]) := by
  decide +kernel

end Session

end ReportDesk.Formula
