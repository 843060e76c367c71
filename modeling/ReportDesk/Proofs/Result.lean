import Mathlib.Data.List.Forall2

/-!
# Computations that may fail

A list of computations succeeds exactly when each of them does, with the values
in their order, and it fails with the first one that fails.  A run of steps that
each see what those before them have done stops at the first step that fails.
-/

namespace ReportDesk

section List

variable {α β ε : Type} {f : α → Except ε β}

theorem bind_eq_ok_iff {x : Except ε α} {b : β} :
    x >>= f = .ok b ↔ ∃ a, x = .ok a ∧ f a = .ok b := by
  cases x with
  | error error => simp [bind, Except.bind]
  | ok a => simp [bind, Except.bind]

theorem mapM_eq_ok_iff {xs : List α} {ys : List β} :
    xs.mapM f = .ok ys ↔ List.Forall₂ (fun x y => f x = .ok y) xs ys := by
  induction xs generalizing ys with
  | nil =>
      rw [List.forall₂_nil_left_iff, eq_comm]
      exact ⟨fun h => Except.ok.inj h, fun h => congrArg Except.ok h⟩
  | cons x xs ih =>
      rw [List.mapM_cons, bind_eq_ok_iff, List.forall₂_cons_left_iff]
      refine exists_congr fun y => ?_
      rw [bind_eq_ok_iff, exists_and_left]
      simp only [ih, pure, Except.pure, Except.ok.injEq, eq_comm]

theorem exists_of_mem_forall₂ {R : α → β → Prop} {xs : List α} {ys : List β}
    (h : List.Forall₂ R xs ys) {y : β} (hmem : y ∈ ys) : ∃ x ∈ xs, R x y := by
  induction h with
  | nil => cases hmem
  | cons hx _ ih =>
      rcases List.mem_cons.mp hmem with rfl | hmem
      · exact ⟨_, List.mem_cons_self, hx⟩
      · obtain ⟨x, hx, hy⟩ := ih hmem
        exact ⟨x, List.mem_cons_of_mem _ hx, hy⟩

theorem mapM_eq_error {before after : List α} {a : α} {e : ε}
    (hbefore : ∀ b ∈ before, ∃ v, f b = .ok v) (ha : f a = .error e) :
    (before ++ a :: after).mapM f = .error e := by
  induction before with
  | nil => simp [List.mapM_cons, ha, bind, Except.bind]
  | cons b before ih =>
      rw [List.forall_mem_cons] at hbefore
      obtain ⟨⟨v, hv⟩, hbefore⟩ := hbefore
      rw [List.cons_append, List.mapM_cons, hv, ih hbefore]
      rfl

theorem exists_mapM_eq_ok {l : List α} (h : ∀ a ∈ l, ∃ v, f a = .ok v) :
    ∃ vs, l.mapM f = .ok vs := by
  induction l with
  | nil => exact ⟨[], rfl⟩
  | cons a l ih =>
      rw [List.forall_mem_cons] at h
      obtain ⟨⟨v, hv⟩, hl⟩ := h
      obtain ⟨vs, hvs⟩ := ih hl
      exact ⟨v :: vs, by rw [List.mapM_cons, hv, hvs]; rfl⟩

end List

/-! ## Runs that stop at their first failure -/

/--
Steps on the items of a list, in turn.  Each step sees its index and the state
that those before it have left, and makes something of its item.
-/
structure Run (σ ι δ : Type) where
  item : δ → ι
  after : σ → List δ → σ
  makes : Nat → σ → δ → Prop
  after_nil : ∀ s, after s [] = s
  after_append : ∀ s done done',
    after s (done ++ done') = after (after s done) done'

namespace Run

variable {σ ι δ ε α : Type} (run : Run σ ι δ)

/-- Each thing is made on the state that those before it have left. -/
def Makes (index : Nat) (s : σ) (done : List δ) : Prop :=
  ∀ before d later, done = before ++ d :: later →
    run.makes (index + before.length) (run.after s before) d

/--
A run ends behind its last item, or before one that fails on the state so far.
-/
inductive Ends (fails : Nat → σ → ι → ε → Prop) (answer : List δ → α)
    (index : Nat) (s : σ) (items : List ι) (done : List δ) : Except ε α → Prop
  | finished (h : items = done.map run.item) :
      Ends fails answer index s items done (.ok (answer done))
  | stopped {failing : ι} {rest : List ι} {error : ε}
      (h : items = done.map run.item ++ failing :: rest)
      (hfails : fails (index + done.length) (run.after s done) failing error) :
      Ends fails answer index s items done (.error error)

variable {run} {fails : Nat → σ → ι → ε → Prop} {answer : List δ → α}
  {index : Nat} {s : σ} {d : δ} {done done' : List δ} {items : List ι}

private theorem makes_nil (index : Nat) (s : σ) : run.Makes index s [] := by
  intro before d later h
  simp at h

theorem after_cons (s : σ) (d : δ) (done : List δ) :
    run.after s (d :: done) = run.after (run.after s [d]) done :=
  run.after_append s [d] done

theorem makes_cons : run.Makes index s (d :: done) ↔
    run.makes index s d ∧ run.Makes (index + 1) (run.after s [d]) done := by
  constructor
  · intro h
    refine ⟨?_, fun before e later hsplit => ?_⟩
    · have hfirst := h [] d done rfl
      rwa [run.after_nil] at hfirst
    · have hlater := h (d :: before) e later (by rw [hsplit]; rfl)
      rwa [after_cons, List.length_cons, Nat.add_comm before.length,
        ← Nat.add_assoc] at hlater
  · rintro ⟨hfirst, hrest⟩ before e later hsplit
    cases before with
    | nil =>
        cases hsplit
        rwa [run.after_nil]
    | cons first before =>
        cases hsplit
        have hlater := hrest before e later rfl
        rwa [← after_cons, Nat.add_assoc, Nat.add_comm 1] at hlater

theorem Makes.of_append (h : run.Makes index s (done ++ done')) :
    run.Makes index s done := by
  intro before d later hsplit
  exact h before d (later ++ done')
    (by rw [hsplit, List.append_assoc, List.cons_append])

theorem Ends.map_prefix {result : Except ε α}
    (h : run.Ends fails answer index s items done result) :
    done.map run.item <+: items := by
  cases h with
  | finished h => exact h ▸ List.prefix_rfl
  | stopped h => exact ⟨_, h.symm⟩

theorem Ends.of_ok {a : α}
    (h : run.Ends fails answer index s items done (.ok a)) :
    items = done.map run.item ∧ a = answer done := by
  cases h with
  | finished h => exact ⟨h, rfl⟩

theorem exists_makes (fails : Nat → σ → ι → ε → Prop) (answer : List δ → α)
    (hsteps : ∀ index s, ∀ i ∈ items,
      (∃ d, run.item d = i ∧ run.makes index s d) ∨ ∃ error,
        fails index s i error)
    (index : Nat) (s : σ) :
    ∃ done result, run.Makes index s done ∧
      run.Ends fails answer index s items done result := by
  -- each item is made something of, or the run stops before it
  induction items generalizing index s with
  | nil => exact ⟨[], _, makes_nil index s, .finished rfl⟩
  | cons i rest ih =>
      rcases hsteps index s i List.mem_cons_self
        with ⟨d, rfl, hmakes⟩ | ⟨error, hfails⟩
      · have hrest := fun index s i hi =>
          hsteps index s i (List.mem_cons_of_mem (run.item d) hi)
        obtain ⟨done, result, hdone, hends⟩ :=
          ih hrest (index + 1) (run.after s [d])
        have hmade : run.Makes index s (d :: done) :=
          makes_cons.mpr ⟨hmakes, hdone⟩
        cases hends with
        | finished h => exact ⟨_, _, hmade, .finished (by rw [h]; rfl)⟩
        | stopped h hfails =>
            rw [← after_cons, Nat.add_assoc, Nat.add_comm 1] at hfails
            exact ⟨_, _, hmade, .stopped (by rw [h]; rfl) hfails⟩
      · rw [← run.after_nil s] at hfails
        exact ⟨[], _, makes_nil index s, .stopped rfl hfails⟩

end Run

end ReportDesk
