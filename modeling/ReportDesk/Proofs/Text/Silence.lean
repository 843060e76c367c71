import ReportDesk.Text.Replace
import ReportDesk.Text.Scan

/-!
# Parts of a text where a pattern does not start

A pattern is silent in a part of a text when it starts at no character of that
part, whatever it may cover of the rest.  A scan passes over such a part, and
a replacement leaves it alone.
-/

namespace ReportDesk.Text

variable {α : Type} {pattern : List Char}

/-! ## Silence -/

/-- The pattern starts at no character of the text when `rest` follows. -/
def Silent (pattern : List Char) : List Char → List Char → Prop
  | [], _ => True
  | c :: cs, rest => ¬ pattern <+: c :: (cs ++ rest) ∧ Silent pattern cs rest

theorem silent_append {cs cs' rest : List Char} :
    Silent pattern (cs ++ cs') rest ↔
      Silent pattern cs (cs' ++ rest) ∧ Silent pattern cs' rest := by
  induction cs with
  | nil => simp [Silent]
  | cons c cs ih => simp [Silent, ih, and_assoc]

theorem Silent.of_isPrefix {longer cs rest : List Char}
    (h : Silent pattern cs rest)
    (hshort : pattern <+: longer) : Silent longer cs rest := by
  induction cs with
  | nil => trivial
  | cons c cs ih => exact ⟨fun hstarts => h.1 (hshort.trans hstarts), ih h.2⟩

theorem silent_of_first {first : Char} {cs rest : List Char} (h : first ∉ cs) :
    Silent (first :: pattern) cs rest := by
  induction cs with
  | nil => trivial
  | cons c cs ih =>
      rw [List.mem_cons, not_or] at h
      refine ⟨fun hstarts => h.1 ?_, ih h.2⟩
      exact (List.cons_prefix_cons.mp hstarts).1

theorem isPrefix_of_head {cs rest : List Char}
    (hrest : ∀ c, rest.head? = some c → c ∉ pattern)
    (h : pattern <+: cs ++ rest) :
    pattern <+: cs := by
  rcases List.prefix_or_prefix_of_prefix h (List.prefix_append cs rest) with
    hinside | ⟨beyond, hbeyond⟩
  · exact hinside
  · rw [← hbeyond, List.prefix_append_right_inj] at h
    cases beyond with
    | nil =>
        rw [List.append_nil] at hbeyond
        exact hbeyond ▸ List.prefix_refl cs
    | cons d beyond =>
        obtain ⟨tail, htail⟩ := h
        refine absurd ?_ (hrest d (by rw [← htail]; rfl))
        rw [← hbeyond]
        exact List.mem_append_right _ List.mem_cons_self

theorem silent_of_suffix {cs rest : List Char}
    (h : ∀ c end', c :: end' <:+ cs → ¬ pattern <+: c :: (end' ++ rest)) :
    Silent pattern cs rest := by
  induction cs with
  | nil => trivial
  | cons c cs ih =>
      exact ⟨h c cs (List.suffix_refl _),
        ih fun d end' hsuffix =>
          h d end' (hsuffix.trans (List.suffix_cons c cs))⟩

theorem silent_of_mem {sign : Char} {cs rest : List Char}
    (hsign : sign ∈ pattern) (h : sign ∉ cs)
    (hrest : ∀ c, rest.head? = some c → c ∉ pattern) :
    Silent pattern cs rest :=
  silent_of_suffix fun _ _ hsuffix hstarts =>
    h (hsuffix.subset ((isPrefix_of_head hrest hstarts).subset hsign))

/-! ## Counting -/

def startsIn (pattern : List Char) : List Char → List Char → Nat
  | [], _ => 0
  | c :: cs, rest =>
      (if pattern.isPrefixOf (c :: (cs ++ rest)) then 1 else 0) +
        startsIn pattern cs rest

theorem startsIn_append (cs cs' rest : List Char) :
    startsIn pattern (cs ++ cs') rest =
      startsIn pattern cs (cs' ++ rest) + startsIn pattern cs' rest := by
  induction cs with
  | nil => simp [startsIn]
  | cons c cs ih => simp [startsIn, ih, Nat.add_assoc]

theorem silent_iff_startsIn {cs rest : List Char} :
    Silent pattern cs rest ↔ startsIn pattern cs rest = 0 := by
  induction cs with
  | nil => simp [Silent, startsIn]
  | cons c cs ih => simp [Silent, startsIn, ih]

theorem startsIn_self_pos (h : pattern ≠ []) (rest : List Char) :
    0 < startsIn pattern pattern rest := by
  apply Nat.pos_of_ne_zero
  rw [Ne, ← silent_iff_startsIn]
  obtain ⟨c, cs, rfl⟩ := List.exists_cons_of_ne_nil h
  exact fun hsilent => hsilent.1 (List.prefix_append (c :: cs) rest)

/-! ## Replacing -/

theorem replaceFrom_of_silent {value cs rest : List Char}
    (h : Silent pattern cs rest) :
    replaceFrom pattern value 0 (cs ++ rest) =
      cs ++ replaceFrom pattern value 0 rest := by
  induction cs with
  | nil => rfl
  | cons c cs ih =>
      have hpass : ¬ pattern.isPrefixOf (c :: (cs ++ rest)) = true := by
        rw [List.isPrefixOf_iff_prefix]
        exact h.1
      rw [List.cons_append, replaceFrom, if_neg hpass, ih h.2]
      rfl

theorem replaceFrom_append_self {value rest : List Char} (h : pattern ≠ []) :
    replaceFrom pattern value 0 (pattern ++ rest) =
      value ++ replaceFrom pattern value 0 rest := by
  obtain ⟨c, cs, rfl⟩ := List.exists_cons_of_ne_nil h
  have hstarts : (c :: cs).isPrefixOf (c :: (cs ++ rest)) = true := by
    rw [List.isPrefixOf_iff_prefix]
    exact List.prefix_append (c :: cs) rest
  rw [List.cons_append, replaceFrom, if_pos hstarts, replaceFrom_skip]
  simp

/-! ## Scanning -/

variable {recognise : Option Char → List Char → Verdict α}

def finds (recognise : Option Char → List Char → Verdict α) :
    Option Char → Nat → List Char → List (α × List Char)
  | _, _, [] => []
  | _, skip + 1, c :: cs => finds recognise (some c) skip cs
  | before, 0, c :: cs =>
      match recognise before (c :: cs) with
      | .pass => finds recognise (some c) 0 cs
      | .skip length => finds recognise (some c) (length - 1) cs
      | .found value length =>
          (value, (c :: cs).take length) ::
            finds recognise (some c) (length - 1) cs

theorem map_scanFrom (before : Option Char) (offset skip : Nat)
    (cs : List Char) :
    (scanFrom recognise before offset skip cs).map
      (fun o => (o.value, o.covered)) =
      finds recognise before skip cs := by
  induction cs generalizing before offset skip with
  | nil => cases skip <;> rfl
  | cons c cs ih =>
      cases skip with
      | succ skip => exact ih _ _ _
      | zero =>
          rw [scanFrom, finds]
          cases recognise before (c :: cs) with
          | pass => exact ih _ _ _
          | skip length => exact ih _ _ _
          | found value length => rw [List.map_cons, ih]

def before (previous : Option Char) (cs : List Char) : Option Char :=
  cs.foldl (fun _ c => some c) previous

@[simp] theorem before_append_singleton (previous : Option Char)
    (cs : List Char) (c : Char) :
    before previous (cs ++ [c]) = some c := by
  simp [before]

theorem finds_of_silent (hpass : ∀ previous cs, ¬ pattern <+: cs →
      recognise previous cs = .pass) {cs rest : List Char}
    (h : Silent pattern cs rest) (previous : Option Char) :
    finds recognise previous 0 (cs ++ rest) =
      finds recognise (before previous cs) 0 rest := by
  induction cs generalizing previous with
  | nil => rfl
  | cons c cs ih =>
      rw [List.cons_append, finds, hpass _ _ h.1]
      exact ih h.2 (some c)

theorem finds_skip (cs rest : List Char) (previous : Option Char) :
    finds recognise previous cs.length (cs ++ rest) =
      finds recognise (before previous cs) 0 rest := by
  induction cs generalizing previous with
  | nil => rfl
  | cons c cs ih => exact ih (some c)

theorem finds_found {value : α} {cs rest : List Char} {previous : Option Char}
    (hne : cs ≠ [])
    (h : recognise previous (cs ++ rest) = .found value cs.length) :
    finds recognise previous 0 (cs ++ rest) =
      (value, cs) :: finds recognise (before previous cs) 0 rest := by
  obtain ⟨c, cs, rfl⟩ := List.exists_cons_of_ne_nil hne
  rw [List.cons_append] at h ⊢
  rw [finds, h]
  simp only [List.length_cons, Nat.add_sub_cancel, List.take_succ_cons,
    List.take_left]
  rw [finds_skip]
  rfl

theorem finds_congr_before
    (h : ∀ previous next cs, recognise previous cs = recognise next cs)
    (previous next : Option Char) (skip : Nat) (cs : List Char) :
    finds recognise previous skip cs = finds recognise next skip cs := by
  cases cs with
  | nil => cases skip <;> rfl
  | cons c cs =>
      cases skip with
      | zero => rw [finds, finds, h previous next]
      | succ skip => rfl

theorem finds_eq_nil {cs : List Char} (h : ∀ previous c rest, c :: rest <:+ cs →
      ∀ value length, recognise previous (c :: rest) ≠ .found value length)
    (previous : Option Char) (skip : Nat) :
    finds recognise previous skip cs = [] := by
  induction cs generalizing previous skip with
  | nil => cases skip <;> rfl
  | cons c cs ih =>
      have hrest (previous : Option Char) (skip : Nat) :
          finds recognise previous skip cs = [] :=
        ih (fun previous d rest hsuffix => h previous d rest
          (hsuffix.trans (List.suffix_cons c cs))) previous skip
      cases skip with
      | succ skip => exact hrest _ _
      | zero =>
          rw [finds]
          split
          · exact hrest _ _
          · exact hrest _ _
          next value length hfound =>
            exact absurd hfound (h _ _ _ (List.suffix_refl _) _ _)

end ReportDesk.Text
