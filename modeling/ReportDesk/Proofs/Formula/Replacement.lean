import ReportDesk.Proofs.Formula.Segment

/-!
# Replacing a part of an expression

Replacing a text in a formula is replacing every part with that text in the
tree, provided that the text starts nowhere else.  A run of replacements over
the fragments of a stage is followed part by part.
-/

namespace ReportDesk.Formula

open Text (Verdict Silent)

namespace Expression

variable {old : List Char} {new : String} {env : Environment} {row : Row}

mutual

def replace (old : List Char) (new : String) : Expression → Expression
  | literal text => if text.toList = old then literal new else literal text
  | column name part =>
      if (column name part).chars = old then literal new else column name part
  | call f operands =>
      if (call f operands).chars = old then literal new
      else call f (replaceAll old new operands)

def replaceAll (old : List Char) (new : String) :
    List Expression → List Expression
  | [] => []
  | e :: es => e.replace old new :: replaceAll old new es

end

/-! ## One part -/

private theorem replaceAll_eq_map (es : List Expression) :
    replaceAll old new es = es.map (replace old new) := by
  induction es with
  | nil => rfl
  | cons e es ih => rw [replaceAll, ih, List.map_cons]

theorem replace_of_eq {e : Expression} (h : e.chars = old) :
    e.replace old new = literal new := by
  cases e with
  | literal text =>
      rw [chars] at h
      rw [replace, if_pos h]
  | column name part => rw [replace, if_pos h]
  | call f operands => rw [replace, if_pos h]

theorem replace_literal {text : String} (h : (literal text).chars ≠ old) :
    (literal text).replace old new = literal text := by
  rw [chars] at h
  rw [replace, if_neg h]

theorem replace_column {name : String} {part : Cell.Part}
    (h : (column name part).chars ≠ old) :
    (column name part).replace old new = column name part := by
  rw [replace, if_neg h]

theorem replace_call {f : Function} {operands : List Expression}
    (h : (call f operands).chars ≠ old) :
    (call f operands).replace old new =
      call f (operands.map (replace old new)) := by
  rw [replace, if_neg h, replaceAll_eq_map]

theorem of_mem_parts_replace {e s : Expression}
    (hs : s ∈ (e.replace old new).parts) :
    s = literal new ∨ ∃ t ∈ e.parts, t.chars ≠ old ∧ s = t.replace old new := by
  induction e with
  | literal text =>
      by_cases h : (literal text).chars = old
      · rw [replace_of_eq h] at hs
        exact .inl (List.mem_singleton.mp hs)
      · have hsame : (literal text).replace old new = literal text :=
          replace_literal h
        rw [hsame] at hs
        refine .inr ⟨literal text, self_mem_parts _, h, ?_⟩
        rw [hsame, List.mem_singleton.mp hs]
  | column name part =>
      by_cases h : (column name part).chars = old
      · rw [replace_of_eq h] at hs
        exact .inl (List.mem_singleton.mp hs)
      · have hsame : (column name part).replace old new = column name part :=
          replace_column h
        rw [hsame] at hs
        refine .inr ⟨column name part, self_mem_parts _, h, ?_⟩
        rw [hsame, List.mem_singleton.mp hs]
  | call f operands ih =>
      by_cases h : (call f operands).chars = old
      · rw [replace_of_eq h] at hs
        exact .inl (List.mem_singleton.mp hs)
      · have hsame : (call f operands).replace old new =
            call f (operands.map (replace old new)) := replace_call h
        rw [hsame, parts_call, List.mem_cons, List.mem_flatMap] at hs
        rcases hs with rfl | ⟨e', hmem, hs⟩
        · exact .inr ⟨call f operands, self_mem_parts _, h, hsame.symm⟩
        · obtain ⟨e, he, rfl⟩ := List.mem_map.mp hmem
          rcases ih e he hs with rfl | ⟨t, ht, hne, rfl⟩
          · exact .inl rfl
          · exact .inr ⟨t, mem_parts_of_operand he ht, hne, rfl⟩

theorem calls_of_replace {e : Expression} {g : Function}
    (h : (e.replace old new).Calls g) : e.Calls g := by
  obtain ⟨operands, hs⟩ := h
  rcases of_mem_parts_replace hs with heq | ⟨t, ht, hne, heq⟩
  · cases heq
  · cases t with
    | literal text =>
        rw [replace_literal hne] at heq
        cases heq
    | column name part =>
        rw [replace_column hne] at heq
        cases heq
    | call f operands' =>
        rw [replace_call hne] at heq
        cases heq
        exact ⟨operands', ht⟩

theorem refers_of_replace {e : Expression} {name : String} {part : Cell.Part}
    (h : (e.replace old new).Refers name part) :
    e.Refers name part ∧ (column name part).chars ≠ old := by
  rcases of_mem_parts_replace h with heq | ⟨t, ht, hne, heq⟩
  · cases heq
  · cases t with
    | literal text =>
        rw [replace_literal hne] at heq
        cases heq
    | column name' part' =>
        rw [replace_column hne] at heq
        cases heq
        exact ⟨ht, hne⟩
    | call f operands =>
        rw [replace_call hne] at heq
        cases heq

theorem Ordered.replace {e : Expression} (h : e.Ordered) (hnew : Plain new) :
    (e.replace old new).Ordered := by
  induction h with
  | @literal text hplain =>
      by_cases heq : (Expression.literal text).chars = old
      · rw [replace_of_eq heq]
        exact .literal hnew
      · rw [replace_literal heq]
        exact .literal hplain
  | @column name part hname =>
      by_cases heq : (Expression.column name part).chars = old
      · rw [replace_of_eq heq]
        exact .literal hnew
      · rw [replace_column heq]
        exact .column hname
  | @call f operands hsum hnext harity hoperands hearlier ih =>
      by_cases heq : (Expression.call f operands).chars = old
      · rw [replace_of_eq heq]
        exact .literal hnew
      · rw [replace_call heq]
        refine .call hsum hnext ?_ ?_ ?_
        · rwa [List.length_map]
        · intro e' hmem
          obtain ⟨e, he, rfl⟩ := List.mem_map.mp hmem
          exact ih e he
        · intro e' hmem g hg
          obtain ⟨e, he, rfl⟩ := List.mem_map.mp hmem
          exact hearlier e he g (calls_of_replace hg)

/--
The value stays when the literal is the value of the parts that it replaces.
-/
theorem value_replace {e : Expression}
    (h : ∀ s ∈ e.parts, s.chars = old → s.value env row = .ok new) :
    (e.replace old new).value env row = e.value env row := by
  have hself : e.chars = old →
      (e.replace old new).value env row = e.value env row := by
    intro heq
    rw [replace_of_eq heq, h e (self_mem_parts e) heq]
    rfl
  induction e with
  | literal text =>
      by_cases heq : (literal text).chars = old
      · exact hself heq
      · rw [replace_literal heq]
  | column name part =>
      by_cases heq : (column name part).chars = old
      · exact hself heq
      · rw [replace_column heq]
  | call f operands ih =>
      by_cases heq : (call f operands).chars = old
      · exact hself heq
      · have hoperand (e : Expression) (hmem : e ∈ operands) :
            (e.replace old new).value env row = e.value env row := by
          have hparts : ∀ s ∈ e.parts,
              s.chars = old → s.value env row = .ok new :=
            fun s hs => h s (mem_parts_of_operand hmem hs)
          refine ih e hmem hparts fun heq => ?_
          rw [replace_of_eq heq, hparts e (self_mem_parts e) heq]
          rfl
        rw [replace_call heq, value, value, valueAll_congr hoperand]

/-! ## The text of an expression -/

def SilentName (pattern : List Char) (e : Expression) : Prop :=
  ∃ f operands, e = call f operands ∧ ∀ rest,
    Silent pattern (f.name.toList ++ ['(']) rest

theorem rewrites_replace (hapart : Apart old) {e : Expression}
    (h : ∀ s ∈ e.parts,
      Rewrites old new.toList s.chars (s.replace old new).chars ∨
      s.chars ≠ old ∧ SilentName old s) :
    Rewrites old new.toList e.chars (e.replace old new).chars := by
  induction e with
  | literal text =>
      rcases h _ (self_mem_parts _) with h | ⟨-, f, operands, heq, -⟩
      · exact h
      · cases heq
  | column name part =>
      rcases h _ (self_mem_parts _) with h | ⟨-, f, operands, heq, -⟩
      · exact h
      · cases heq
  | call f operands ih =>
      rcases h _ (self_mem_parts _) with h | ⟨hne, f, operands, heq, hname⟩
      · exact h
      · cases heq
        have hoperand (e : Expression) (hmem : e ∈ operands) :
            Rewrites old new.toList e.chars (e.replace old new).chars :=
          ih e hmem fun s hs => h s (mem_parts_of_operand hmem hs)
        have hcall := Rewrites.call hapart hname hoperand
        rw [replace_call hne, chars_call, chars_call, List.map_map]
        exact hcall

theorem scans_parts {α : Type} (recognise : Option Char → List Char → Verdict α)
    {pattern : List Char} (hpass : ∀ previous cs, ¬ pattern <+: cs →
      recognise previous cs = .pass) (hapart : Apart pattern)
    (hit : Expression → Option (α × List Char)) {e : Expression}
    (h : ∀ s ∈ e.parts, Scans recognise s.chars (s.parts.filterMap hit) ∨
      hit s = none ∧ SilentName pattern s) :
    Scans recognise e.chars (e.parts.filterMap hit) := by
  induction e with
  | literal text =>
      rcases h _ (self_mem_parts _) with h | ⟨-, f, operands, heq, -⟩
      · exact h
      · cases heq
  | column name part =>
      rcases h _ (self_mem_parts _) with h | ⟨-, f, operands, heq, -⟩
      · exact h
      · cases heq
  | call f operands ih =>
      rcases h _ (self_mem_parts _) with h | ⟨hnone, f, operands, heq, hname⟩
      · exact h
      · cases heq
        have hoperand (e : Expression) (hmem : e ∈ operands) :
            Scans recognise e.chars (e.parts.filterMap hit) :=
          ih e hmem fun s hs => h s (mem_parts_of_operand hmem hs)
        have hcall := Scans.call hpass hapart hname hoperand
        rw [chars_call, parts_call, List.filterMap_cons_none hnone,
          List.filterMap_flatMap]
        exact hcall

theorem scans_nothing {α : Type}
    {recognise : Option Char → List Char → Verdict α}
    {pattern : List Char} (hpass : ∀ previous cs, ¬ pattern <+: cs →
      recognise previous cs = .pass) (hapart : Apart pattern) {e : Expression}
    (h : ∀ s ∈ e.parts, Scans recognise s.chars [] ∨ SilentName pattern s) :
    Scans recognise e.chars [] := by
  have hscan := scans_parts recognise hpass hapart (fun _ => none)
    (e := e) fun s hs => ?_
  · rwa [List.filterMap_none] at hscan
  · rw [List.filterMap_none]
    rcases h s hs with h | h
    · exact .inl h
    · exact .inr ⟨rfl, h⟩

end Expression

/-! ## A run of replacements -/

section Run

variable {value : Fragment → Logged Error String}

theorem exists_value_of_substitute {fs : List Fragment} {cs cs' : List Char}
    (h : (substitute value fs cs).result = .ok cs') :
    ∀ f ∈ fs, ∃ v, (value f).result = .ok v := by
  induction fs generalizing cs with
  | nil => exact fun f hmem => absurd hmem List.not_mem_nil
  | cons f fs ih =>
      rw [substitute, Logged.result_bind] at h
      cases hv : (value f).result with
      | error error =>
          rw [hv] at h
          cases h
      | ok v =>
          rw [hv] at h
          rw [List.forall_mem_cons]
          exact ⟨⟨v, hv⟩, ih h⟩

theorem substitute_run {invariant : List Fragment → Expression → Prop}
    (hstep : ∀ f fs e v, invariant (f :: fs) e → (value f).result = .ok v →
      Rewrites f.text.toList v.toList e.chars
          (e.replace f.text.toList v).chars ∧
        invariant fs (e.replace f.text.toList v))
    {fs : List Fragment} (hvalues : ∀ f ∈ fs, ∃ v, (value f).result = .ok v)
    {e : Expression} (h : invariant fs e) :
    ∃ e' : Expression, (substitute value fs e.chars).result = .ok e'.chars ∧
      invariant [] e' := by
  induction fs generalizing e with
  | nil => exact ⟨e, rfl, h⟩
  | cons f fs ih =>
      rw [List.forall_mem_cons] at hvalues
      obtain ⟨⟨v, hv⟩, hvalues⟩ := hvalues
      obtain ⟨hrewrites, hnext⟩ := hstep f fs e v h hv
      have hreplaced : Text.replaceAll f.text.toList v.toList e.chars =
          (e.replace f.text.toList v).chars := by
        have hend := hrewrites [] closes_nil
        rw [List.append_nil] at hend
        rw [Text.replaceAll_eq, hend]
        exact List.append_nil _
      obtain ⟨e', hresult, hinv⟩ := ih hvalues hnext
      refine ⟨e', ?_, hinv⟩
      rw [substitute, Logged.result_bind, hv]
      change (substitute value fs
        (Text.replaceAll f.text.toList v.toList e.chars)).result = _
      rw [hreplaced, hresult]

end Run

end ReportDesk.Formula
