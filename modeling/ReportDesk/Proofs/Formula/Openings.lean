import ReportDesk.Proofs.Formula.CallText
import ReportDesk.Proofs.Formula.Layout
import ReportDesk.Proofs.Text.Sites

/-!
# Where calls of a name open

A call opens where the name stands with its parenthesis and no identifier runs
into it.  These are the sites of the scan for calls.  A call hides only the
openings in its body, so the scan comes to the leftmost opening of a kind
unless a call in which such an opening may stand lies before it.
-/

namespace ReportDesk.Formula

open Text (Occurrence Verdict byteLength)

/-! ## Openings -/

/--
A place where the name and its parenthesis stand and no identifier runs into the
name.
-/
structure Opening (name text : String) where
  behind : List Char
  ahead : List Char
  text_eq : text.toList = behind ++ (opener name ++ ahead)
  bounded : ∀ c, behind.getLast? = some c → Text.isIdentifierChar c = false

theorem close_not_mem_takeWhile (cs : List Char) :
    ')' ∉ cs.takeWhile (· != ')') := by
  intro hmem
  have hne := List.all_eq_true.mp List.all_takeWhile ')' hmem
  cases hne

namespace Opening

variable {name text : String}

def start (p : Opening name text) : Nat :=
  byteLength p.behind

def Unclosed (p : Opening name text) : Prop :=
  ')' ∉ p.ahead

def body (p : Opening name text) : List Char :=
  p.ahead.takeWhile (· != ')')

def toEnd (p : Opening name text) : String :=
  String.ofList (opener name ++ p.ahead)

def toClose (p : Opening name text) : String :=
  String.ofList (opener name ++ (p.body ++ [')']))

def call (p : Opening name text) : ClosedCall :=
  ⟨p.start, p.toClose, p.body⟩

def Leftmost (property : Opening name text → Prop) (p : Opening name text) :
    Prop :=
  property p ∧ ∀ q, property q → p.start ≤ q.start

private theorem exists_ahead_eq {p : Opening name text} (h : ¬ p.Unclosed) :
    ∃ rest, p.ahead = p.body ++ ')' :: rest := by
  apply exists_closing
  rw [List.contains_iff_mem]
  exact Classical.not_not.mp h

end Opening

namespace CallBody

def isUnclosed : CallBody → Bool
  | .unclosed => true
  | .closed _ => false

def isRefused (accepts : List Char → Bool) : CallBody → Bool
  | .unclosed => true
  | .closed body => !accepts body

end CallBody

/-! ## What is found at an opening -/

section Recognising

variable {name : String} {previous : Option Char} {cs : List Char}

theorem exists_ahead_of_found {value : CallBody} {length : Nat}
    (h : recogniseCall name previous cs = .found value length) :
    previous.any Text.isIdentifierChar = false ∧ ∃ ahead,
      cs = opener name ++ ahead := by
  unfold recogniseCall at h
  simp only at h
  split at h
  · cases h
  next after hafter =>
    rw [List.isPrefixOf?_eq_some_iff_append_eq] at hafter
    split at h
    · cases h
    next hprevious => exact ⟨by simpa using hprevious, after, hafter.symm⟩

private theorem exists_ahead_of_skip {length : Nat}
    (h : recogniseCall name previous cs = .skip length) :
    length = (opener name).length ∧ ∃ ahead, cs = opener name ++ ahead := by
  unfold recogniseCall at h
  simp only at h
  split at h
  · cases h
  next after hafter =>
    rw [List.isPrefixOf?_eq_some_iff_append_eq] at hafter
    split at h
    · cases h
      exact ⟨rfl, after, hafter.symm⟩
    · split at h
      all_goals cases h

private theorem finds_of_identifier
    (h : previous.any Text.isIdentifierChar = true) (kind : CallBody → Bool) :
    (recogniseCall name previous cs).finds kind = false := by
  rw [← Bool.not_eq_true, Verdict.finds_eq_true_iff]
  rintro ⟨value, length, hfound, -⟩
  rw [(exists_ahead_of_found hfound).1] at h
  cases h

end Recognising

/-! ## What a call hides -/

private theorem exists_ending {name : String} {c d : Char}
    {gap rest inside after : List Char}
    (h : c :: (gap ++ d :: rest) = opener name ++ (inside ++ ')' :: after))
    (hge : name.toList.length ≤ gap.length)
    (hlt : gap.length < (opener name ++ (inside ++ [')'])).length - 1) :
    ∃ ending, ending <:+ inside ∧ d :: rest = ending ++ ')' :: after := by
  have hopener : (opener name).length = name.toList.length + 1 := by
    simp [opener]
  obtain ⟨k, hk⟩ :=
    Nat.exists_eq_add_of_le
    (show (opener name).length ≤ gap.length + 1 by omega)
  have hle : k ≤ inside.length := by
    simp only [List.length_append, List.length_singleton] at hlt
    omega
  have hdrop := congrArg (List.drop (gap.length + 1)) h
  rw [List.drop_succ_cons, List.drop_left, hk, List.drop_length_add_append,
    List.drop_append_of_le_length hle] at hdrop
  exact ⟨inside.drop k, List.drop_suffix k inside, hdrop⟩

section Hiding

variable {name : String}
  (hname : ∀ c ∈ name.toList, Text.isIdentifierChar c = true)

include hname

private theorem close_not_mem_opener : ')' ∉ opener name := by
  intro hmem
  rcases List.mem_append.mp hmem with hmem | hmem
  · exact absurd (hname ')' hmem) (by decide)
  · exact absurd hmem (by decide)

private theorem before_inside_opener {c d : Char} {gap rest ahead : List Char}
    (h : c :: (gap ++ d :: rest) = opener name ++ ahead)
    (hlt : gap.length < name.toList.length) :
    (Text.before (some c) gap).any Text.isIdentifierChar = true := by
  have hinside : c :: gap = name.toList.take (gap.length + 1) := by
    have htake := congrArg (List.take (gap.length + 1)) h
    rwa [List.take_succ_cons, List.take_left, opener, List.append_assoc,
      List.take_append_of_le_length (by omega)] at htake
  have hlast : Text.before (some c) gap = (c :: gap).getLast? :=
    Text.before_none (c :: gap)
  rw [hlast]
  cases hlast' : (c :: gap).getLast? with
  | none => simp at hlast'
  | some e =>
      have hmem := List.mem_of_getLast? hlast'
      rw [hinside] at hmem
      exact hname e (List.mem_of_mem_take hmem)

/--
A call hides only what stands in its body: what its opener hides lies behind a
character of the name, and there no call opens.
-/
theorem reveals_recogniseCall {stops kind : CallBody → Bool}
    (hunclosed : stops .unclosed = true)
    (hclosed : ∀ inside ending previous rest, stops (.closed inside) = false →
      ending <:+ inside →
      (recogniseCall name previous (ending ++ ')' :: rest)).finds kind =
        false) :
    Text.Reveals (recogniseCall name) stops kind where
  skipped := by
    intro previous c cs n h
    obtain ⟨rfl, ahead, hcs⟩ := exists_ahead_of_skip h
    refine Text.clear_of_forall fun gap d rest hgap hlt => ?_
    rw [hgap] at hcs
    refine finds_of_identifier (before_inside_opener hname hcs ?_) kind
    simpa [opener] using hlt
  found := by
    intro previous c cs value n h hstops
    obtain ⟨hprevious, ahead, hcs⟩ := exists_ahead_of_found h
    by_cases hclose : ')' ∈ ahead
    · obtain ⟨after, hahead⟩ :=
        exists_closing (List.contains_iff_mem.mpr hclose)
      generalize hinside : ahead.takeWhile (· != ')') = inside at hahead
      have hbare : ')' ∉ inside := hinside ▸ close_not_mem_takeWhile ahead
      subst hahead
      rw [hcs, recogniseCall_of_closed hprevious hbare] at h
      obtain ⟨rfl, rfl⟩ := Verdict.found.inj h
      refine Text.clear_of_forall fun gap d rest hgap hlt => ?_
      rw [hgap] at hcs
      by_cases hin : gap.length < name.toList.length
      · exact finds_of_identifier (before_inside_opener hname hcs hin) kind
      · obtain ⟨ending, hending, hplace⟩ :=
          exists_ending hcs (Nat.not_lt.mp hin) hlt
        rw [hplace]
        exact hclosed inside ending _ after hstops hending
    · rw [hcs, recogniseCall_of_unclosed hprevious hclose] at h
      obtain ⟨rfl, -⟩ := Verdict.found.inj h
      rw [hunclosed] at hstops
      cases hstops

private theorem finds_before_close {ending rest : List Char} (h : '(' ∉ ending)
    (previous : Option Char) (kind : CallBody → Bool) :
    (recogniseCall name previous (ending ++ ')' :: rest)).finds kind =
      false := by
  rw [← Bool.not_eq_true, Verdict.finds_eq_true_iff]
  rintro ⟨value, length, hfound, -⟩
  obtain ⟨-, ahead, hahead⟩ := exists_ahead_of_found hfound
  have hstarts : opener name <+: ending ++ ')' :: rest := ⟨ahead, hahead.symm⟩
  have hends : opener name <+: ending := by
    refine Text.isPrefix_of_head (fun c hc => ?_) hstarts
    obtain rfl : ')' = c := Option.some.inj hc
    exact close_not_mem_opener hname
  exact h (hends.subset (List.mem_append_right _ List.mem_cons_self))

private theorem finds_unclosed_before_close (ending rest : List Char)
    (previous : Option Char) :
    (recogniseCall name previous (ending ++ ')' :: rest)).finds
      CallBody.isUnclosed = false := by
  rw [← Bool.not_eq_true, Verdict.finds_eq_true_iff]
  rintro ⟨value, length, hfound, hvalue⟩
  obtain ⟨hprevious, ahead, hahead⟩ := exists_ahead_of_found hfound
  have hclose : ')' ∈ ahead := by
    have hmem : ')' ∈ opener name ++ ahead := by
      rw [← hahead]
      simp
    exact (List.mem_append.mp hmem).resolve_left (close_not_mem_opener hname)
  obtain ⟨after, hafter⟩ := exists_closing (List.contains_iff_mem.mpr hclose)
  rw [hahead, hafter,
    recogniseCall_of_closed hprevious (close_not_mem_takeWhile ahead)] at hfound
  obtain ⟨rfl, -⟩ := Verdict.found.inj hfound
  cases hvalue

theorem reveals_unclosed :
    Text.Reveals (recogniseCall name) CallBody.isUnclosed CallBody.isUnclosed :=
  reveals_recogniseCall hname rfl fun _ ending previous rest _ _ =>
    finds_unclosed_before_close hname ending rest previous

theorem reveals_refused {accepts : List Char → Bool}
    (hnested : ∀ body, '(' ∈ body → accepts body = false)
    (kind : CallBody → Bool) :
    Text.Reveals (recogniseCall name) (CallBody.isRefused accepts) kind := by
  refine reveals_recogniseCall hname rfl
    fun inside ending previous rest hstops hending => ?_
  refine finds_before_close hname (fun hmem => ?_) previous kind
  have hrefused := hnested inside (hending.subset hmem)
  simp [CallBody.isRefused, hrefused] at hstops

end Hiding

/-! ## The sites of a search are the openings -/

namespace Opening

variable {name text : String}

def site (p : Opening name text) : Occurrence CallBody :=
  if ')' ∈ p.ahead then p.call.occurrence
  else ⟨.unclosed, p.start, opener name ++ p.ahead⟩

theorem site_of_unclosed {p : Opening name text} (h : p.Unclosed) :
    p.site = ⟨.unclosed, p.start, opener name ++ p.ahead⟩ :=
  if_neg h

theorem site_of_closed {p : Opening name text} (h : ¬ p.Unclosed) :
    p.site = p.call.occurrence :=
  if_pos (Classical.not_not.mp h)

theorem start_site (p : Opening name text) : p.site.start = p.start := by
  by_cases h : p.Unclosed
  · rw [site_of_unclosed h]
  · rw [site_of_closed h]
    rfl

theorem isUnclosed_site {p : Opening name text} :
    p.site.value.isUnclosed = true ↔ p.Unclosed := by
  by_cases h : p.Unclosed
  · simp [site_of_unclosed h, CallBody.isUnclosed, h]
  · simp [site_of_closed h, ClosedCall.occurrence, CallBody.isUnclosed, h]

theorem isRefused_site {p : Opening name text} {accepts : List Char → Bool}
    (h : ¬ p.Unclosed) :
    p.site.value.isRefused accepts = true ↔ accepts p.body = false := by
  simp [site_of_closed h, ClosedCall.occurrence, CallBody.isRefused, call]

private theorem recognised (p : Opening name text) :
    recogniseCall name p.behind.getLast? (opener name ++ p.ahead) =
        .found p.site.value p.site.covered.length ∧
      p.site.covered <+: opener name ++ p.ahead := by
  have hprevious : p.behind.getLast?.any Text.isIdentifierChar = false := by
    cases hlast : p.behind.getLast? with
    | none => rfl
    | some c => exact p.bounded c hlast
  by_cases h : p.Unclosed
  · rw [site_of_unclosed h]
    exact ⟨recogniseCall_of_unclosed hprevious h, List.prefix_refl _⟩
  · obtain ⟨rest, hahead⟩ := exists_ahead_eq h
    have hbare : ')' ∉ p.body := close_not_mem_takeWhile p.ahead
    rw [site_of_closed h, hahead, recogniseCall_of_closed hprevious hbare]
    refine ⟨by simp [ClosedCall.occurrence, call, toClose], rest, ?_⟩
    simp [ClosedCall.occurrence, call, toClose]

end Opening

section Searching

variable {name text : String}

theorem mem_sites_iff {o : Occurrence CallBody} :
    o ∈ Text.sites (recogniseCall name) text.toList ↔
      ∃ p : Opening name text, o = p.site := by
  rw [Text.mem_sites]
  constructor
  · rintro ⟨behind, c, rest, length, htext, hfound, hstart, hcovered⟩
    obtain ⟨hprevious, ahead, hahead⟩ := exists_ahead_of_found hfound
    have hbounded : ∀ c, behind.getLast? = some c →
        Text.isIdentifierChar c = false := by
      intro c hc
      simpa [hc] using hprevious
    let p : Opening name text :=
      ⟨behind, ahead, by rw [htext, hahead], hbounded⟩
    obtain ⟨hrecognised, hprefix⟩ := p.recognised
    have hsame : recogniseCall name behind.getLast? (opener name ++ ahead) =
        _ := hrecognised
    rw [← hahead, hfound] at hsame
    obtain ⟨hvalue, rfl⟩ := Verdict.found.inj hsame
    have hcovered' : o.covered = p.site.covered := by
      rw [hcovered, hahead]
      exact (List.prefix_iff_eq_take.mp hprefix).symm
    have hstart' : o.start = p.site.start := by
      rw [hstart, p.start_site]
      rfl
    refine ⟨p, ?_⟩
    obtain ⟨value, start, covered⟩ := o
    simp only at hvalue hcovered' hstart'
    rw [hvalue, hcovered', hstart']
  · rintro ⟨p, rfl⟩
    obtain ⟨hrecognised, hprefix⟩ := p.recognised
    obtain ⟨c, rest, hcons⟩ := List.exists_cons_of_ne_nil
      (show opener name ++ p.ahead ≠ [] by simp [opener])
    rw [hcons] at hrecognised hprefix
    exact ⟨p.behind, c, rest, _, by rw [p.text_eq, hcons], hrecognised,
      p.start_site, List.prefix_iff_eq_take.mp hprefix⟩

theorem exists_leftmost {kind : CallBody → Bool}
    (hreveals : Text.Reveals (recogniseCall name) kind kind)
    {p : Opening name text} (hp : kind p.site.value = true) :
    ∃ q : Opening name text, q.Leftmost (fun r => kind r.site.value = true) ∧
      (Text.scan (recogniseCall name) text.toList).find?
        (fun o => kind o.value) =
        some q.site := by
  have hsome : ((Text.sites (recogniseCall name) text.toList).find?
      fun o => kind o.value).isSome = true :=
    List.find?_isSome.mpr ⟨p.site, mem_sites_iff.mpr ⟨p, rfl⟩, hp⟩
  obtain ⟨o, ho⟩ := Option.isSome_iff_exists.mp hsome
  obtain ⟨q, rfl⟩ := mem_sites_iff.mp (List.mem_of_find?_eq_some ho)
  have hq :=
    List.find?_some (p := fun o : Occurrence CallBody => kind o.value) ho
  refine ⟨q, ⟨hq, fun r hr => ?_⟩, (Text.find?_scan hreveals _).trans ho⟩
  rw [← q.start_site, ← r.start_site]
  exact Text.start_le_of_find?_sites ho (mem_sites_iff.mpr ⟨r, rfl⟩) hr

end Searching

end ReportDesk.Formula
