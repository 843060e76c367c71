import Mathlib.Data.List.Infix
import ReportDesk.Proofs.Text.Silence

/-!
# What a scan finds and what stands in the text

A site is a place of the text at which the recogniser finds something, whether
or not a scan gets to look there.  A scan passes over what it takes, so it
misses the sites behind it.  It misses none when everything taken is clear of
sites, and it starts with the leftmost site of a kind when what is taken before
is clear of that kind.
-/

namespace ReportDesk.Text

variable {α β : Type} {recognise : Option Char → List Char → Verdict α}

/-! ## Sites -/

def Verdict.finds (kind : α → Bool) : Verdict α → Bool
  | .found value _ => kind value
  | _ => false

theorem Verdict.finds_eq_true_iff {kind : α → Bool} {verdict : Verdict α} :
    verdict.finds kind = true ↔
      ∃ value length, verdict = .found value length ∧ kind value = true := by
  cases verdict with
  | pass => simp [finds]
  | skip length => simp [finds]
  | found value length => simp [finds]

def sitesFrom (recognise : Option Char → List Char → Verdict α) :
    Option Char → Nat → List Char → List (Occurrence α)
  | _, _, [] => []
  | previous, offset, c :: cs =>
      let later := sitesFrom recognise (some c) (offset + c.utf8Size) cs
      match recognise previous (c :: cs) with
      | .found value length => ⟨value, offset, (c :: cs).take length⟩ :: later
      | _ => later

def sites (recognise : Option Char → List Char → Verdict α) (text : List Char) :
    List (Occurrence α) :=
  sitesFrom recognise none 0 text

theorem before_none (cs : List Char) : before none cs = cs.getLast? := by
  induction cs using List.reverseRecOn with
  | nil => rfl
  | append_singleton cs c _ => simp

theorem mem_sitesFrom_cons {previous : Option Char} {offset : Nat} {c : Char}
    {cs : List Char} {o : Occurrence α} :
    o ∈ sitesFrom recognise previous offset (c :: cs) ↔
      (∃ length, recognise previous (c :: cs) = .found o.value length ∧
          o.start = offset ∧
        o.covered = (c :: cs).take length) ∨
      o ∈ sitesFrom recognise (some c) (offset + c.utf8Size) cs := by
  rw [sitesFrom]
  cases recognise previous (c :: cs) with
  | pass => simp
  | skip length => simp
  | found value length =>
      rw [List.mem_cons]
      refine or_congr_left ⟨?_, ?_⟩
      · rintro rfl
        exact ⟨length, rfl, rfl, rfl⟩
      · rintro ⟨length', hfound, hstart, hcovered⟩
        obtain ⟨rfl, rfl⟩ := Verdict.found.inj hfound
        rw [← hstart, ← hcovered]

private theorem mem_sitesFrom {previous : Option Char} {offset : Nat}
    {cs : List Char} {o : Occurrence α} :
    o ∈ sitesFrom recognise previous offset cs ↔
      ∃ gap c rest length, cs = gap ++ c :: rest ∧
        recognise (before previous gap) (c :: rest) = .found o.value length ∧
        o.start = offset + byteLength gap ∧
          o.covered = (c :: rest).take length := by
  induction cs generalizing previous offset with
  | nil => simp [sitesFrom]
  | cons c cs ih =>
      rw [mem_sitesFrom_cons, ih]
      constructor
      · rintro (⟨length, hplace⟩
          | ⟨gap, d, rest, length, rfl, hfound, hstart, hcovered⟩)
        · exact ⟨[], c, cs, length, rfl, hplace⟩
        · refine ⟨c :: gap, d, rest, length, rfl, hfound, ?_, hcovered⟩
          rw [hstart, byteLength_cons, Nat.add_assoc]
      · rintro ⟨gap, d, rest, length, hcs, hfound, hstart, hcovered⟩
        cases gap with
        | nil =>
            obtain ⟨rfl, rfl⟩ := List.cons_eq_cons.mp hcs
            exact .inl ⟨length, hfound, hstart, hcovered⟩
        | cons c' gap =>
            obtain ⟨rfl, rfl⟩ := List.cons_eq_cons.mp hcs
            refine .inr ⟨gap, d, rest, length, rfl, hfound, ?_, hcovered⟩
            rw [hstart, byteLength_cons, Nat.add_assoc]

theorem mem_sites {text : List Char} {o : Occurrence α} :
    o ∈ sites recognise text ↔
      ∃ behind c rest length, text = behind ++ c :: rest ∧
        recognise behind.getLast? (c :: rest) = .found o.value length ∧
        o.start = byteLength behind ∧ o.covered = (c :: rest).take length := by
  rw [sites, mem_sitesFrom]
  simp only [before_none, Nat.zero_add]

private theorem pairwise_sitesFrom (previous : Option Char) (offset : Nat)
    (cs : List Char) :
    (sitesFrom recognise previous offset cs).Pairwise fun o o' =>
      o.start < o'.start := by
  induction cs generalizing previous offset with
  | nil => exact .nil
  | cons c cs ih =>
      rw [sitesFrom]
      split
      · refine .cons (fun o ho => ?_) (ih _ _)
        obtain ⟨gap, _, _, _, _, _, hstart, _⟩ := mem_sitesFrom.mp ho
        have := c.utf8Size_pos
        change offset < o.start
        omega
      · exact ih _ _

private theorem pairwise_sites (text : List Char) :
    (sites recognise text).Pairwise fun o o' => o.start < o'.start :=
  pairwise_sitesFrom none 0 text

theorem start_le_of_find?_sites {p : Occurrence α → Bool} {text : List Char}
    {o o' : Occurrence α} (h : (sites recognise text).find? p = some o)
    (hmem : o' ∈ sites recognise text)
    (hp : p o' = true) : o.start ≤ o'.start := by
  obtain ⟨-, earlier, later, hall, hearlier⟩ :=
    List.find?_eq_some_iff_append.mp h
  have hsorted : (sites recognise text).Pairwise fun o o' =>
      o.start < o'.start :=
    pairwise_sites text
  rw [hall] at hmem hsorted
  rcases List.mem_append.mp hmem with hmem | hmem
  · have hnot := hearlier o' hmem
    rw [hp] at hnot
    cases hnot
  · rcases List.mem_cons.mp hmem with rfl | hmem
    · exact Nat.le_refl _
    · have hlater :=
        (List.pairwise_cons.mp (List.pairwise_append.mp hsorted).2.1).1
      exact Nat.le_of_lt (hlater o' hmem)

private theorem countP_sitesFrom_cons (kind : α → Bool) (previous : Option Char)
    (offset : Nat) (c : Char) (cs : List Char) :
    (sitesFrom recognise previous offset (c :: cs)).countP
      (fun o => kind o.value) =
      (sitesFrom recognise (some c) (offset + c.utf8Size) cs).countP
        (fun o => kind o.value) +
        if (recognise previous (c :: cs)).finds kind then 1 else 0 := by
  rw [sitesFrom]
  cases recognise previous (c :: cs) with
  | pass => rfl
  | skip length => rfl
  | found value length => exact List.countP_cons

theorem countP_sites {recognise' : Option Char → List Char → Verdict β}
    {kind : α → Bool} {kind' : β → Bool} (h : ∀ previous cs,
      (recognise previous cs).finds kind = (recognise' previous cs).finds kind')
    (text : List Char) :
    (sites recognise text).countP (fun o => kind o.value) =
      (sites recognise' text).countP fun o => kind' o.value := by
  have hfrom : ∀ previous offset cs,
      (sitesFrom recognise previous offset cs).countP (fun o => kind o.value) =
        (sitesFrom recognise' previous offset cs).countP fun o =>
          kind' o.value := by
    intro previous offset cs
    induction cs generalizing previous offset with
    | nil => rfl
    | cons c cs ih => rw [countP_sitesFrom_cons, countP_sitesFrom_cons, ih, h]
  exact hfrom none 0 text

/-! ## What a scan takes -/

def Clear (recognise : Option Char → List Char → Verdict α) (kind : α → Bool) :
    Option Char → Nat → List Char → Prop
  | _, _, [] => True
  | _, 0, _ => True
  | previous, n + 1, c :: cs =>
      (recognise previous (c :: cs)).finds kind = false ∧
        Clear recognise kind (some c) n cs

/--
What is taken hides no value of the kind, unless the value that takes it
`stops`.
-/
structure Reveals (recognise : Option Char → List Char → Verdict α)
    (stops kind : α → Bool) : Prop where
  skipped : ∀ {previous c cs n}, recognise previous (c :: cs) = .skip n →
    Clear recognise kind (some c) (n - 1) cs
  found : ∀ {previous c cs value n},
      recognise previous (c :: cs) = .found value n →
    stops value = false → Clear recognise kind (some c) (n - 1) cs

theorem clear_zero (kind : α → Bool) (previous : Option Char) (cs : List Char) :
    Clear recognise kind previous 0 cs := by
  cases cs <;> trivial

theorem clear_of_forall {kind : α → Bool} {previous : Option Char} {n : Nat}
    {cs : List Char} (h : ∀ gap c rest, cs = gap ++ c :: rest → gap.length < n →
      (recognise (before previous gap) (c :: rest)).finds kind = false) :
    Clear recognise kind previous n cs := by
  induction cs generalizing previous n with
  | nil => cases n <;> trivial
  | cons c cs ih =>
      cases n with
      | zero => trivial
      | succ n =>
          refine ⟨h [] c cs rfl (Nat.succ_pos n),
            ih fun gap d rest hcs hlt => ?_⟩
          exact h (c :: gap) d rest (by rw [hcs]; rfl) (Nat.succ_lt_succ hlt)

private theorem find?_scanFrom {kind : α → Bool}
    (h : Reveals recognise kind kind) {previous : Option Char} {skip : Nat}
    {cs : List Char} (hclear : Clear recognise kind previous skip cs)
    (offset : Nat) :
    (scanFrom recognise previous offset skip cs).find? (fun o => kind o.value) =
      (sitesFrom recognise previous offset cs).find? fun o => kind o.value := by
  -- the characters still skipped are clear
  induction cs generalizing previous offset skip with
  | nil => cases skip <;> rfl
  | cons c cs ih =>
      cases skip with
      | succ skip =>
          rw [scanFrom, sitesFrom, ih hclear.2]
          have hnot := hclear.1
          cases hverdict : recognise previous (c :: cs) with
          | pass => rfl
          | skip length => rfl
          | found value length =>
              have hkind : kind value = false := by rwa [hverdict] at hnot
              simp only [List.find?_cons, hkind]
      | zero =>
          rw [scanFrom, sitesFrom]
          cases hverdict : recognise previous (c :: cs) with
          | pass => exact ih (clear_zero _ _ _) _
          | skip length => exact ih (h.skipped hverdict) _
          | found value length =>
              cases hkind : kind value with
              | true => simp only [List.find?_cons, hkind]
              | false =>
                  simp only [List.find?_cons, hkind]
                  exact ih (h.found hverdict hkind) _

private theorem scanFrom_eq_sitesFrom {stops : α → Bool}
    (h : Reveals recognise stops fun _ => true) {previous : Option Char}
    {offset skip : Nat} {cs : List Char}
    (hnone : ∀ o ∈ sitesFrom recognise previous offset cs,
      stops o.value = false)
    (hclear : Clear recognise (fun _ => true) previous skip cs) :
    scanFrom recognise previous offset skip cs =
      sitesFrom recognise previous offset cs := by
  induction cs generalizing previous offset skip with
  | nil => cases skip <;> rfl
  | cons c cs ih =>
      have hrest : ∀ o ∈ sitesFrom recognise (some c) (offset + c.utf8Size) cs,
          stops o.value = false :=
        fun o ho => hnone o (mem_sitesFrom_cons.mpr (.inr ho))
      cases skip with
      | succ skip =>
          rw [scanFrom, sitesFrom, ih hrest hclear.2]
          have hnot := hclear.1
          cases hverdict : recognise previous (c :: cs) with
          | pass => rfl
          | skip length => rfl
          | found value length =>
              rw [hverdict] at hnot
              cases hnot
      | zero =>
          rw [scanFrom, sitesFrom]
          cases hverdict : recognise previous (c :: cs) with
          | pass => exact ih hrest (clear_zero _ _ _)
          | skip length => exact ih hrest (h.skipped hverdict)
          | found value length =>
              have hvalue : stops value = false := by
                apply hnone ⟨value, offset, (c :: cs).take length⟩
                exact mem_sitesFrom_cons.mpr (.inl ⟨length, hverdict, rfl, rfl⟩)
              exact congrArg (List.cons _) (ih hrest (h.found hverdict hvalue))

theorem find?_scan {kind : α → Bool} (h : Reveals recognise kind kind)
    (text : List Char) :
    (scan recognise text).find? (fun o => kind o.value) =
      (sites recognise text).find? fun o => kind o.value :=
  find?_scanFrom h (clear_zero _ _ _) 0

theorem scan_eq_sites {stops : α → Bool}
    (h : Reveals recognise stops fun _ => true) {text : List Char}
    (hnone : ∀ o ∈ sites recognise text, stops o.value = false) :
    scan recognise text = sites recognise text :=
  scanFrom_eq_sitesFrom h hnone (clear_zero _ _ _)

private theorem scanFrom_of_length_le (previous : Option Char) (offset : Nat)
    {skip : Nat} {cs : List Char} (h : cs.length ≤ skip) :
    scanFrom recognise previous offset skip cs = [] := by
  induction cs generalizing previous offset skip with
  | nil => cases skip <;> rfl
  | cons c cs ih =>
      cases skip with
      | zero => cases h
      | succ skip => exact ih _ _ (Nat.le_of_succ_le_succ h)

theorem scan_eq_singleton {value : α} {text : List Char} (hne : text ≠ [])
    (h : recognise none text = .found value text.length) :
    scan recognise text = [⟨value, 0, text⟩] := by
  obtain ⟨c, cs, rfl⟩ := List.exists_cons_of_ne_nil hne
  rw [scan, scanFrom, h]
  simp only [List.take_length]
  rw [scanFrom_of_length_le _ _ (by simp)]

theorem scan_eq_sites_of_first {first : Char}
    (hpass : ∀ {previous cs}, ¬ [first] <+: cs → recognise previous cs = .pass)
    (hskip : ∀ {previous cs n}, recognise previous cs ≠ .skip n)
    (hfound : ∀ {previous c cs value n},
      recognise previous (c :: cs) = .found value n →
      first ∉ cs.take (n - 1)) (text : List Char) :
    scan recognise text = sites recognise text := by
  have hreveals : Reveals recognise (fun _ => false) fun _ => true := by
    refine ⟨fun h => absurd h hskip, fun {previous c cs value n} h _ => ?_⟩
    refine clear_of_forall fun gap d rest hcs hlt => ?_
    have hd : d ∈ cs.take (n - 1) := by
      rw [hcs, List.take_append, List.mem_append]
      right
      rw [List.take_cons (by omega)]
      exact List.mem_cons_self
    have hne : ¬ [first] <+: d :: rest := by
      rintro hstarts
      obtain rfl := (List.cons_prefix_cons.mp hstarts).1
      exact hfound h hd
    rw [hpass hne]
    rfl
  exact scan_eq_sites hreveals fun _ _ => rfl

end ReportDesk.Text
