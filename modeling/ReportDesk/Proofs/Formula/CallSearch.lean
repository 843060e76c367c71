import ReportDesk.Proofs.Formula.Finders
import ReportDesk.Proofs.Formula.Openings

/-!
# Which calls of a name are found

The search for calls never overlooks the opening that decides its answer: the
leftmost one that is not closed, else the leftmost one whose body is refused.
Where there is neither, it finds the call of every opening.
-/

namespace ReportDesk.Formula

open Text (Occurrence byteLength)

/-! ## What a search answers -/

private theorem closedCalls_eq_error {os : List (Occurrence CallBody)}
    {o : Occurrence CallBody}
    (h : os.find? (fun o => o.value.isUnclosed) = some o) :
    closedCalls os = .error (.unclosedCall (String.ofList o.covered)) := by
  induction os with
  | nil => cases h
  | cons first rest ih =>
      obtain ⟨value, start, covered⟩ := first
      cases value with
      | unclosed =>
          rw [List.find?_cons_of_pos rfl] at h
          obtain rfl := Option.some.inj h
          rfl
      | closed body =>
          rw [List.find?_cons_of_neg (by simp [CallBody.isUnclosed])] at h
          simp [closedCalls, ih h, Except.map]

private theorem exists_closedCalls_eq_ok {os : List (Occurrence CallBody)}
    (h : ∀ o ∈ os, o.value.isUnclosed = false) :
    ∃ calls, closedCalls os = .ok calls := by
  induction os with
  | nil => exact ⟨[], rfl⟩
  | cons first rest ih =>
      rw [List.forall_mem_cons] at h
      obtain ⟨calls, hcalls⟩ := ih h.2
      obtain ⟨value, start, covered⟩ := first
      cases value with
      | unclosed => cases h.1
      | closed body => exact ⟨⟨start, String.ofList covered, body⟩ :: calls, by
          simp [closedCalls, hcalls, Except.map]⟩

theorem ClosedCall.occurrence_injective :
    Function.Injective ClosedCall.occurrence := by
  rintro ⟨start, text, body⟩ ⟨start', text', body'⟩ h
  simp only [ClosedCall.occurrence, Occurrence.mk.injEq, CallBody.closed.injEq,
    String.toList_inj] at h
  obtain ⟨rfl, rfl, rfl⟩ := h
  rfl

structure Reads (make : ClosedCall → Except Error Fragment)
    (accepts : List Char → Bool) : Prop where
  accepted : ∀ call, accepts call.body = true → ∃ f, make call = .ok f
  refused : ∀ call, accepts call.body = false → ∃ e, make call = .error e
  nested : ∀ body, '(' ∈ body → accepts body = false

section Answers

variable {name text : String}
  (hname : ∀ c ∈ name.toList, Text.isIdentifierChar c = true)
  {make : ClosedCall → Except Error Fragment} {accepts : List Char → Bool}

include hname

theorem findClosedCalls_of_unclosed {p : Opening name text} (hp : p.Unclosed) :
    ∃ q : Opening name text, q.Leftmost Opening.Unclosed ∧
      findClosedCalls name text = .error (.unclosedCall q.toEnd) := by
  obtain ⟨q, ⟨hq, hleast⟩, hfind⟩ :=
    exists_leftmost (reveals_unclosed hname) (Opening.isUnclosed_site.mpr hp)
  have hunclosed := Opening.isUnclosed_site.mp hq
  refine ⟨q, ⟨hunclosed, fun r hr => hleast r (Opening.isUnclosed_site.mpr hr)⟩,
    ?_⟩
  rw [findClosedCalls, closedCalls_eq_error hfind,
    Opening.site_of_unclosed hunclosed]
  rfl

private theorem exists_findClosedCalls
    (hclosed : ∀ p : Opening name text, ¬ p.Unclosed) :
    ∃ calls, findClosedCalls name text = .ok calls ∧
      Text.scan (recogniseCall name) text.toList =
        calls.map ClosedCall.occurrence := by
  have hsites : (Text.sites (recogniseCall name) text.toList).find?
      (fun o => o.value.isUnclosed) = none := by
    rw [List.find?_eq_none]
    intro o ho
    obtain ⟨p, rfl⟩ := mem_sites_iff.mp ho
    exact fun h => hclosed p (Opening.isUnclosed_site.mp h)
  rw [← Text.find?_scan (reveals_unclosed hname), List.find?_eq_none] at hsites
  obtain ⟨calls, hcalls⟩ := exists_closedCalls_eq_ok fun o ho =>
    Bool.not_eq_true _ ▸ hsites o ho
  exact ⟨calls, hcalls, eq_of_closedCalls hcalls⟩

theorem search_of_refused (hreads : Reads make accepts)
    (hclosed : ∀ p : Opening name text, ¬ p.Unclosed) {p : Opening name text}
    (hp : accepts p.body = false) :
    ∃ q : Opening name text, q.Leftmost (fun r => accepts r.body = false) ∧
      ∃ e, make q.call = .error e ∧
        (do (← findClosedCalls name text).mapM make) = Except.error e := by
  obtain ⟨q, ⟨hq, hleast⟩, hfind⟩ := exists_leftmost
    (reveals_refused hname hreads.nested _)
    ((Opening.isRefused_site (hclosed p)).mpr hp)
  have hrefused := (Opening.isRefused_site (hclosed q)).mp hq
  refine ⟨q, ⟨hrefused, fun r hr => ?_⟩, ?_⟩
  · exact hleast r ((Opening.isRefused_site (hclosed r)).mpr hr)
  · obtain ⟨calls, hcalls, hscan⟩ := exists_findClosedCalls hname hclosed
    obtain ⟨e, he⟩ := hreads.refused q.call hrefused
    rw [hscan, List.find?_map, Opening.site_of_closed (hclosed q),
      Option.map_eq_some_iff] at hfind
    obtain ⟨call, hcall, hsame⟩ := hfind
    obtain rfl := ClosedCall.occurrence_injective hsame
    obtain ⟨-, before, after, rfl, hbefore⟩ :=
      List.find?_eq_some_iff_append.mp hcall
    refine ⟨e, he, ?_⟩
    rw [hcalls]
    refine mapM_eq_error (fun b hb => hreads.accepted b ?_) he
    simpa [ClosedCall.occurrence, CallBody.isRefused] using hbefore b hb

theorem search_of_accepted (hreads : Reads make accepts)
    (hclosed : ∀ p : Opening name text, ¬ p.Unclosed)
    (haccepted : ∀ p : Opening name text, accepts p.body = true) :
    ∃ found, (do (← findClosedCalls name text).mapM make) = Except.ok found ∧
      ∀ f, f ∈ found ↔ ∃ p : Opening name text, make p.call = .ok f := by
  obtain ⟨calls, hcalls, hscan⟩ := exists_findClosedCalls hname hclosed
  have hnone : ∀ o ∈ Text.sites (recogniseCall name) text.toList,
      o.value.isRefused accepts = false := by
    intro o ho
    obtain ⟨p, rfl⟩ := mem_sites_iff.mp ho
    rw [← Bool.not_eq_true, Opening.isRefused_site (hclosed p), haccepted p]
    decide
  rw [Text.scan_eq_sites (reveals_refused hname hreads.nested _) hnone] at hscan
  have hmem (call : ClosedCall) : call ∈ calls ↔
      ∃ p : Opening name text, call = p.call := by
    rw [← List.mem_map_of_injective ClosedCall.occurrence_injective, ← hscan,
      mem_sites_iff]
    refine exists_congr fun p => ?_
    rw [Opening.site_of_closed (hclosed p),
      ClosedCall.occurrence_injective.eq_iff]
  obtain ⟨found, hfound⟩ : ∃ found, calls.mapM make = .ok found := by
    refine exists_mapM_eq_ok fun call hcall => hreads.accepted call ?_
    obtain ⟨p, rfl⟩ := (hmem call).mp hcall
    exact haccepted p
  refine ⟨found, by rw [hcalls]; exact hfound, fun f => ?_⟩
  have hall := mapM_eq_ok_iff.mp hfound
  constructor
  · intro hf
    obtain ⟨call, hcall, hmake⟩ := exists_of_mem_forall₂ hall hf
    obtain ⟨p, rfl⟩ := (hmem call).mp hcall
    exact ⟨p, hmake⟩
  · rintro ⟨p, hmake⟩
    obtain ⟨g, hg, hmake'⟩ :=
      exists_of_mem_forall₂ hall.flip ((hmem p.call).mpr ⟨p, rfl⟩)
    obtain rfl := Except.ok.inj (hmake.symm.trans hmake')
    exact hg

end Answers

/-! ## Calls of functions -/

namespace Opening

variable {name text : String}

/-- Another parenthesis opens before the first one that closes. -/
def Nested (p : Opening name text) : Prop :=
  '(' ∈ p.body

end Opening

def AreOperands (body : List Char) (operands : List String) : Prop :=
  if body = [] then operands = []
  else Text.joinWith [','] (operands.map String.toList) = body ∧
    ∀ operand ∈ operands, ',' ∉ operand.toList

/-- The fragment runs from the opening through the first closing parenthesis. -/
structure Opening.IsCall {name text : String} (p : Opening name text)
    (f : Fragment) : Prop where
  start : f.start = p.start
  stop : f.stop = p.start + byteLength (opener name ++ p.body) + 1
  text : f.text = p.toClose
  reference : ∃ operands,
    f.reference = .call name operands ∧ AreOperands p.body operands

private theorem areOperands_operandsOf (body : List Char) :
    AreOperands body (operandsOf body) := by
  unfold AreOperands operandsOf
  split
  next h => simp [h]
  next h =>
    rw [if_neg (by simpa using h), List.map_map]
    have htexts : (Text.splitAt ',' body).map (String.toList ∘ String.ofList) =
        Text.splitAt ',' body := by
      simp [Function.comp_def]
    refine ⟨by rw [htexts, Text.joinWith_splitAt], fun operand hmem => ?_⟩
    obtain ⟨piece, hpiece, rfl⟩ := List.mem_map.mp hmem
    rw [String.toList_ofList]
    exact separator_not_mem_of_mem_splitAt hpiece

theorem reads_callFragment (name : String) :
    Reads (callFragment name) fun body => !body.contains '(' where
  accepted := by
    intro call h
    rw [Bool.not_eq_true'] at h
    exact ⟨_, if_neg (by rw [h]; decide)⟩
  refused := by
    intro call h
    rw [Bool.not_eq_false'] at h
    exact ⟨_, if_pos h⟩
  nested := by
    intro body h
    simpa using h

section Calls

variable {name text : String}
  (hname : ∀ c ∈ name.toList, Text.isIdentifierChar c = true)

include hname

theorem findCalls_of_unclosed {p : Opening name text} (hp : p.Unclosed) :
    ∃ q : Opening name text, q.Leftmost Opening.Unclosed ∧
      findCalls name text = .error (.unclosedCall q.toEnd) := by
  obtain ⟨q, hq, hcalls⟩ := findClosedCalls_of_unclosed hname hp
  exact ⟨q, hq, by rw [findCalls, hcalls]; rfl⟩

theorem findCalls_of_nested (hclosed : ∀ p : Opening name text, ¬ p.Unclosed)
    {p : Opening name text} (hp : p.Nested) :
    ∃ q : Opening name text, q.Leftmost Opening.Nested ∧
      findCalls name text = .error (.malformedCall q.toClose) := by
  have hnested (r : Opening name text) : (!r.body.contains '(') = false ↔
      r.Nested := by
    simp [Opening.Nested]
  obtain ⟨q, ⟨hq, hleast⟩, e, he, hfind⟩ :=
    search_of_refused hname (reads_callFragment name) hclosed
      ((hnested p).mpr hp)
  refine ⟨q, ⟨(hnested q).mp hq, fun r hr => hleast r ((hnested r).mpr hr)⟩, ?_⟩
  have hfailed : callFragment name q.call = .error (.malformedCall q.toClose) :=
    if_pos (by rwa [Bool.not_eq_false'] at hq)
  obtain rfl := Except.error.inj (he.symm.trans hfailed)
  exact hfind

theorem findCalls_of_plain (hclosed : ∀ p : Opening name text, ¬ p.Unclosed)
    (hplain : ∀ p : Opening name text, ¬ p.Nested) :
    ∃ found, findCalls name text = .ok found ∧
      (∀ n, (∃ f ∈ found, f.start = n) ↔ ∃ p : Opening name text, p.start = n) ∧
      ∀ f ∈ found, ∃ p : Opening name text, p.IsCall f := by
  have hfragment (p : Opening name text) : callFragment name p.call =
      .ok ⟨.call name (operandsOf p.body), p.toClose, p.start⟩ := by
    refine if_neg ?_
    rw [List.contains_iff_mem]
    exact hplain p
  obtain ⟨found, hfound, hmem⟩ :=
    search_of_accepted hname (reads_callFragment name) hclosed
    fun p => by simpa [Opening.Nested] using hplain p
  refine ⟨found, hfound, fun n => ?_, fun f hf => ?_⟩
  · constructor
    · rintro ⟨f, hf, rfl⟩
      obtain ⟨p, hp⟩ := (hmem f).mp hf
      rw [hfragment p] at hp
      obtain rfl := Except.ok.inj hp
      exact ⟨p, rfl⟩
    · rintro ⟨p, rfl⟩
      exact ⟨_, (hmem _).mpr ⟨p, hfragment p⟩, rfl⟩
  · obtain ⟨p, hp⟩ := (hmem f).mp hf
    rw [hfragment p] at hp
    obtain rfl := Except.ok.inj hp
    refine ⟨p, rfl, ?_, rfl, operandsOf p.body, rfl,
      areOperands_operandsOf p.body⟩
    have hclose : ')'.utf8Size = 1 := by decide
    simp [Fragment.stop, Opening.toClose, hclose, Nat.add_assoc]

end Calls

/--
The search fails on the leftmost opening that nothing closes, else on the
leftmost call with another parenthesis in its body.  Where there is neither, it
finds one call for every opening.
-/
theorem findCalls_exact {name : String}
    (hname : ∀ c ∈ name.toList, Text.isIdentifierChar c = true)
    (text : String) :
    ((∃ t, findCalls name text = .error (.unclosedCall t)) ↔
      ∃ p : Opening name text, p.Unclosed) ∧
    (∀ t, findCalls name text = .error (.unclosedCall t) →
      ∃ p : Opening name text, p.Leftmost Opening.Unclosed ∧ t = p.toEnd) ∧
    ((∀ p : Opening name text, ¬ p.Unclosed) →
      ((∃ t, findCalls name text = .error (.malformedCall t)) ↔
        ∃ p : Opening name text, p.Nested) ∧
      (∀ t, findCalls name text = .error (.malformedCall t) →
        ∃ p : Opening name text, p.Leftmost Opening.Nested ∧ t = p.toClose) ∧
      ((∀ p : Opening name text, ¬ p.Nested) →
        ∃ found, findCalls name text = .ok found ∧
          (∀ n, (∃ f ∈ found, f.start = n) ↔ ∃ p : Opening name text,
            p.start = n) ∧
          (∀ f ∈ found, ∃ p : Opening name text, p.IsCall f) ∧
          found.Pairwise fun f g => f.stop ≤ g.start)) := by
  by_cases hunclosed : ∃ p : Opening name text, p.Unclosed
  · obtain ⟨p, hp⟩ := hunclosed
    obtain ⟨q, hq, hfind⟩ := findCalls_of_unclosed hname hp
    refine ⟨⟨fun _ => ⟨p, hp⟩, fun _ => ⟨_, hfind⟩⟩, fun t ht => ⟨q, hq, ?_⟩,
      fun hclosed => absurd hp (hclosed p)⟩
    rw [hfind] at ht
    exact (Error.unclosedCall.inj (Except.error.inj ht)).symm
  · have hclosed : ∀ p : Opening name text, ¬ p.Unclosed :=
      fun p hp => hunclosed ⟨p, hp⟩
    by_cases hnested : ∃ p : Opening name text, p.Nested
    · obtain ⟨p, hp⟩ := hnested
      obtain ⟨q, hq, hfind⟩ := findCalls_of_nested hname hclosed hp
      have hnot (t : String) : findCalls name text ≠
          .error (.unclosedCall t) := by
        rw [hfind]
        rintro ⟨⟩
      refine ⟨⟨fun ⟨t, ht⟩ => absurd ht (hnot t), fun h => absurd h hunclosed⟩,
        fun t ht => absurd ht (hnot t), fun _ =>
          ⟨⟨fun _ => ⟨p, hp⟩, fun _ => ⟨_, hfind⟩⟩,
          fun t ht => ⟨q, hq, ?_⟩, fun hplain => absurd hp (hplain p)⟩⟩
      rw [hfind] at ht
      exact (Error.malformedCall.inj (Except.error.inj ht)).symm
    · obtain ⟨found, hfind, hstarts, hcalls⟩ :=
        findCalls_of_plain hname hclosed fun p hp => hnested ⟨p, hp⟩
      have hnot (e : Error) : findCalls name text ≠ .error e := by
        rw [hfind]
        rintro ⟨⟩
      refine ⟨⟨fun ⟨t, ht⟩ => absurd ht (hnot _), fun h => absurd h hunclosed⟩,
        fun t ht => absurd ht (hnot _), fun _ =>
          ⟨⟨fun ⟨t, ht⟩ => absurd ht (hnot _), fun h => absurd h hnested⟩,
            fun t ht => absurd ht (hnot _),
              fun _ => ⟨found, hfind, hstarts, hcalls, ?_⟩⟩⟩
      exact Fragment.pairwise_of_tiles (tiles_findCalls hfind)

/--
The name inside `COLOR` opens nothing; of two calls that stay open the first is
blamed.
-/
theorem findCalls_exact_twoOpen :
    (∀ c ∈ "OR".toList, Text.isIdentifierChar c = true) ∧
      ∃ t, findCalls "OR" "COLOR(x) OR(a) OR(b,OR(c" =
          .error (.unclosedCall t) ∧
        ∃ p : Opening "OR" "COLOR(x) OR(a) OR(b,OR(c",
          p.Leftmost Opening.Unclosed ∧ t = p.toEnd := by
  have hname : ∀ c ∈ "OR".toList, Text.isIdentifierChar c = true :=
    List.all_eq_true.mp (by decide)
  obtain ⟨hfails, hblame, -⟩ := findCalls_exact hname "COLOR(x) OR(a) OR(b,OR(c"
  have hbounded : ∀ c, "COLOR(x) OR(a) OR(b,".toList.getLast? = some c →
      Text.isIdentifierChar c = false := by
    intro c hc
    obtain rfl : ',' = c := by simpa using hc
    decide
  let last : Opening "OR" "COLOR(x) OR(a) OR(b,OR(c" :=
    ⟨"COLOR(x) OR(a) OR(b,".toList, ['c'], by decide, hbounded⟩
  have hopen : ')' ∉ ['c'] := by decide
  obtain ⟨t, ht⟩ := hfails.mpr ⟨last, hopen⟩
  exact ⟨hname, t, ht, hblame t ht⟩

end ReportDesk.Formula
