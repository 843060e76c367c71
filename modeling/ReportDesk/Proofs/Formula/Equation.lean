import ReportDesk.Proofs.Formula.CallText

/-!
# One equation inside another

Equations are replaced by text, wherever the text stands.  The first equation
of a list whose text stands in another one is therefore what is replaced there,
and the characters around it stay.
-/

namespace ReportDesk.Formula

open Text (Silent replaceFrom)

structure Equation where
  lhs : String
  rhs : String
deriving DecidableEq, Repr

namespace Equation

variable {e f g : Equation} {es done : List Equation} {settings : Settings}

/-! ## The text of an equation -/

def text (e : Equation) : String :=
  e.lhs ++ "==" ++ e.rhs

def Holds (e : Equation) : Prop :=
  Text.trim e.lhs = Text.trim e.rhs

structure Plain (e : Equation) : Prop where
  lhs : Formula.Plain e.lhs
  rhs : Formula.Plain e.rhs

instance (e : Equation) : Decidable e.Plain :=
  decidable_of_iff (Formula.Plain e.lhs ∧ Formula.Plain e.rhs)
    ⟨fun h => ⟨h.1, h.2⟩, fun h => ⟨h.1, h.2⟩⟩

theorem toList_text (e : Equation) :
    e.text.toList = e.lhs.toList ++ '=' :: '=' :: e.rhs.toList := by
  simp [text]

private theorem Plain.eq_of_isSign (h : e.Plain) {c : Char}
    (hc : c ∈ e.text.toList) (hsign : isSign c = true) : c = '=' := by
  simp only [toList_text, List.mem_append, List.mem_cons] at hc
  rcases hc with hc | rfl | rfl | hc
  · exact absurd hc (h.lhs.not_mem hsign)
  · rfl
  · rfl
  · exact absurd hc (h.rhs.not_mem hsign)

theorem Plain.not_mem (h : e.Plain) {c : Char} (hsign : isSign c = true)
    (hne : c ≠ '=') :
    c ∉ e.text.toList :=
  fun hc => hne (h.eq_of_isSign hc hsign)

theorem equal_mem (e : Equation) : '=' ∈ e.text.toList := by
  simp [toList_text]

private theorem count_equal (h : e.Plain) : e.text.toList.count '=' = 2 := by
  have hl : e.lhs.toList.count '=' = 0 :=
    List.count_eq_zero.mpr (h.lhs.not_mem (by decide))
  have hr : e.rhs.toList.count '=' = 0 :=
    List.count_eq_zero.mpr (h.rhs.not_mem (by decide))
  simp [toList_text, hl, hr]

theorem Plain.not_starts (h : e.Plain) {c : Char} (hsign : isSign c = true)
    (hne : c ≠ '=') (rest : List Char) : ¬ e.text.toList <+: c :: rest := by
  intro hstarts
  obtain ⟨first, tail, hcs⟩ :=
    List.exists_cons_of_ne_nil (List.ne_nil_of_mem (equal_mem e))
  rw [hcs, List.cons_prefix_cons] at hstarts
  refine h.not_mem hsign hne ?_
  rw [hcs, ← hstarts.1]
  exact List.mem_cons_self

theorem Plain.apart (h : e.Plain) : Apart e.text.toList := by
  rintro c rest (rfl | rfl)
  · exact h.not_starts (by decide) (by decide) rest
  · exact h.not_starts (by decide) (by decide) rest

theorem Plain.silent_name (h : e.Plain) (f : Function) (rest : List Char) :
    Silent e.text.toList (f.name.toList ++ ['(']) rest := by
  rw [Text.silent_append]
  refine ⟨Text.silent_of_mem (equal_mem e) (f.isName.not_mem (by decide))
    fun c hc => ?_, h.not_starts (by decide) (by decide) rest, trivial⟩
  cases hc
  exact h.not_mem (by decide) (by decide)

theorem Plain.head_not_mem (h : e.Plain) {rest : List Char}
    (hrest : Closes rest) :
    ∀ c, rest.head? = some c → c ∉ e.text.toList := by
  intro c hc
  rcases hrest c hc with rfl | rfl
  · exact h.not_mem (by decide) (by decide)
  · exact h.not_mem (by decide) (by decide)

/-! ## One equation inside another -/

section Inside

variable {before after : List Char} (he : e.Plain) (hf : f.Plain)
  (hinside : e.text.toList = before ++ f.text.toList ++ after)

include he hf hinside

theorem equal_not_mem_around : '=' ∉ before ∧ '=' ∉ after := by
  have hcount := congrArg (List.count '=') hinside
  rw [List.count_append, List.count_append, count_equal he, count_equal hf]
    at hcount
  rw [← List.count_eq_zero, ← List.count_eq_zero]
  omega

theorem sides_of_inside :
    e.lhs.toList = before ++ f.lhs.toList ∧
      e.rhs.toList = f.rhs.toList ++ after := by
  have hleft : '=' ∉ before ++ f.lhs.toList := by
    rw [List.mem_append, not_or]
    exact ⟨(equal_not_mem_around he hf hinside).1, hf.lhs.not_mem (by decide)⟩
  have hshort : before ++ f.lhs.toList ++ ['='] <+:
      e.lhs.toList ++ '=' :: '=' :: e.rhs.toList := by
    rw [← toList_text, hinside, toList_text]
    exact ⟨'=' :: f.rhs.toList ++ after, by simp⟩
  have hlhs : before ++ f.lhs.toList = e.lhs.toList :=
    eq_of_isPrefix hleft (he.lhs.not_mem (by decide)) hshort
  rw [toList_text, toList_text, ← hlhs] at hinside
  simp only [List.append_assoc, List.cons_append, List.append_cancel_left_eq,
    List.cons.injEq, true_and] at hinside
  exact ⟨hlhs.symm, hinside⟩

private theorem isSign_around {c : Char} (hc : c ∈ before ∨ c ∈ after) :
    isSign c = false := by
  obtain ⟨hbefore, hafter⟩ := equal_not_mem_around he hf hinside
  by_contra hsign
  rw [Bool.not_eq_false] at hsign
  have hequal : c = '=' := by
    refine he.eq_of_isSign ?_ hsign
    rw [hinside, List.mem_append, List.mem_append]
    rcases hc with hc | hc
    · exact .inl (.inl hc)
    · exact .inr hc
  rcases hc with hc | hc
  · exact hbefore (hequal ▸ hc)
  · exact hafter (hequal ▸ hc)

theorem rewrites_inside (value : List Char) :
    Rewrites f.text.toList value e.text.toList (before ++ value ++ after) := by
  intro rest hrest
  obtain ⟨hbefore, hafter⟩ := equal_not_mem_around he hf hinside
  have hstart : Silent f.text.toList before
      (f.text.toList ++ (after ++ rest)) := by
    refine Text.silent_of_suffix fun c tail hsuffix hstarts => ?_
    have hleft : '=' ∉ c :: tail ++ f.lhs.toList := by
      rw [List.mem_append, not_or]
      exact ⟨fun hmem => hbefore (hsuffix.subset hmem),
        hf.lhs.not_mem (by decide)⟩
    have hshort : f.lhs.toList ++ ['='] <+:
        c :: tail ++ f.lhs.toList ++ '=' ::
          ('=' :: f.rhs.toList ++ (after ++ rest)) := by
      refine List.IsPrefix.trans ⟨'=' :: f.rhs.toList, ?_⟩
        (hstarts.trans ⟨[], ?_⟩)
      · simp [toList_text]
      · simp [toList_text]
    have hlength := congrArg List.length
      (eq_of_isPrefix (hf.lhs.not_mem (by decide)) hleft hshort)
    simp only [List.cons_append, List.length_cons, List.length_append]
      at hlength
    omega
  have hend : Silent f.text.toList after rest :=
    Text.silent_of_mem (equal_mem f) hafter (hf.head_not_mem hrest)
  have hne : f.text.toList ≠ [] := List.ne_nil_of_mem (equal_mem f)
  rw [hinside, List.append_assoc, List.append_assoc,
    Text.replaceFrom_of_silent hstart, Text.replaceFrom_append_self hne,
    Text.replaceFrom_of_silent hend]
  simp

end Inside

private theorem rewrites_of_not_infix (hf : f.Plain)
    (h : ¬ f.text.toList <:+: e.text.toList) (value : List Char) :
    Rewrites f.text.toList value e.text.toList e.text.toList := by
  refine Rewrites.of_silent fun rest hrest =>
    Text.silent_of_suffix fun c tail hsuffix hstarts => ?_
  have hshort : f.text.toList <+: c :: tail :=
    Text.isPrefix_of_head (hf.head_not_mem hrest) hstarts
  exact h (hshort.isInfix.trans hsuffix.isInfix)

/-! ## What the replacements leave of an equation -/

def truthText (settings : Settings) (e : Equation) : String :=
  settings.truthText (Comparator.equal.holds e.lhs e.rhs)

def reader? (es : List Equation) (e : Equation) : Option Equation :=
  es.find? fun f => f.text.toList <:+: e.text.toList

def rewritten (settings : Settings) (done : List Equation) (e : Equation) :
    List Char :=
  match reader? done e with
  | some f =>
    replaceFrom f.text.toList (f.truthText settings).toList 0 e.text.toList
  | none => e.text.toList

theorem exists_inside (h : reader? es e = some f) :
    f ∈ es ∧ ∃ before after,
      e.text.toList = before ++ f.text.toList ++ after := by
  have hwithin := List.find?_some h
  rw [decide_eq_true_iff] at hwithin
  obtain ⟨before, after, hinside⟩ := hwithin
  exact ⟨List.mem_of_find?_eq_some h, before, after, hinside.symm⟩

theorem exists_reader (h : e ∈ es) : ∃ f, reader? es e = some f := by
  rw [← Option.isSome_iff_exists, reader?, List.find?_isSome]
  exact ⟨e, h, decide_eq_true (List.infix_refl _)⟩

theorem rewritten_of_inside {before after : List Char} (he : e.Plain)
    (hf : f.Plain) (h : reader? es e = some f)
    (hinside : e.text.toList = before ++ f.text.toList ++ after) :
    rewritten settings es e = before ++ (f.truthText settings).toList ++
      after := by
  have hend := rewrites_inside he hf hinside (f.truthText settings).toList
    [] closes_nil
  rw [List.append_nil, replaceFrom, List.append_nil] at hend
  rw [rewritten, h]
  exact hend

section Replacing

variable (htrue : Formula.Plain settings.trueValue)
  (hfalse : Formula.Plain settings.falseValue)

include htrue hfalse

theorem plain_truthText (e : Equation) : Formula.Plain (e.truthText settings) :=
  Settings.plain_truthText htrue hfalse _

theorem isSign_rewritten (he : e.Plain) (hdone : ∀ f ∈ done, f.Plain)
    (h : reader? done e = some f) :
    ∀ c ∈ rewritten settings done e, isSign c = false := by
  obtain ⟨hmem, before, after, hinside⟩ := exists_inside h
  have hf := hdone f hmem
  rw [rewritten_of_inside he hf h hinside]
  intro c hc
  rw [List.mem_append, List.mem_append] at hc
  rcases hc with (hc | hc) | hc
  · exact isSign_around he hf hinside (.inl hc)
  · exact plain_truthText htrue hfalse f c hc
  · exact isSign_around he hf hinside (.inr hc)

theorem rewrites_rewritten (he : e.Plain) (hf : f.Plain)
    (hdone : ∀ g ∈ done, g.Plain) :
    Rewrites f.text.toList (f.truthText settings).toList
      (rewritten settings done e)
      (rewritten settings (done ++ [f]) e) := by
  cases hreader : reader? done e with
  | some g =>
      have hsame : reader? (done ++ [f]) e = some g := by
        rw [reader?, List.find?_append]
        rw [reader?] at hreader
        rw [hreader]
        rfl
      have hkept : rewritten settings (done ++ [f]) e =
          rewritten settings done e := by
        rw [rewritten, rewritten, hsame, hreader]
      rw [hkept]
      -- a value and what stood around its equation have no sign of equality
      refine Rewrites.of_silent fun rest hrest =>
        Text.silent_of_mem (equal_mem f) (fun hmem => ?_)
          (hf.head_not_mem hrest)
      exact absurd (isSign_rewritten htrue hfalse he hdone hreader '=' hmem)
        (by decide)
  | none =>
      have hwhole : rewritten settings done e = e.text.toList := by
        rw [rewritten, hreader]
      have hnext : reader? (done ++ [f]) e = reader? [f] e := by
        rw [reader?, List.find?_append]
        rw [reader?] at hreader
        rw [hreader]
        rfl
      rw [hwhole]
      by_cases hwithin : f.text.toList <:+: e.text.toList
      · have hread : reader? (done ++ [f]) e = some f := by
          rw [hnext]
          simp [reader?, hwithin]
        obtain ⟨-, before, after, hinside⟩ := exists_inside hread
        rw [rewritten_of_inside he hf hread hinside]
        exact rewrites_inside he hf hinside _
      · have hread : reader? (done ++ [f]) e = none := by
          rw [hnext]
          simp [reader?, hwithin]
        have hkept : rewritten settings (done ++ [f]) e = e.text.toList := by
          rw [rewritten, hread]
        rw [hkept]
        exact rewrites_of_not_infix hf hwithin _

end Replacing

end Equation

end ReportDesk.Formula
