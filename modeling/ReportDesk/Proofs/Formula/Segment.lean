import Mathlib.Data.List.Basic
import ReportDesk.Proofs.Formula.Expression
import ReportDesk.Proofs.Text.Silence

/-!
# Operands inside a formula

An operand stands between an opening parenthesis or a comma and a comma or a
closing parenthesis.  What is found or replaced in it does not depend on the
rest of the formula, so a call is scanned and rewritten operand by operand.
-/

namespace ReportDesk.Formula

open Text (Verdict Silent finds replaceFrom)

variable {α ι : Type}

def Closes (rest : List Char) : Prop :=
  ∀ c, rest.head? = some c → c = ',' ∨ c = ')'

def Opens (previous : Option Char) : Prop :=
  ∀ c, previous = some c → c = ',' ∨ c = '('

def Apart (pattern : List Char) : Prop :=
  ∀ c rest, c = ',' ∨ c = ')' → ¬ pattern <+: c :: rest

/-- Whatever surrounds the operand, this is found in it. -/
def Scans (recognise : Option Char → List Char → Verdict α)
    (operand : List Char) (found : List (α × List Char)) : Prop :=
  ∀ previous next rest, Opens previous → Closes rest →
    finds recognise previous 0 (operand ++ rest) =
      found ++ finds recognise next 0 rest

/-- Whatever follows the operand, it is rewritten to this. -/
def Rewrites (pattern value operand result : List Char) : Prop :=
  ∀ rest, Closes rest →
    replaceFrom pattern value 0 (operand ++ rest) =
      result ++ replaceFrom pattern value 0 rest

theorem closes_nil : Closes [] := fun _ h => by cases h

private theorem closes_comma (rest : List Char) : Closes (',' :: rest) := by
  intro c h
  exact .inl (Option.some.inj h).symm

private theorem closes_parenthesis (rest : List Char) :
    Closes (')' :: rest) := by
  intro c h
  exact .inr (Option.some.inj h).symm

theorem opens_none : Opens none := fun _ h => by cases h

private theorem opens_comma :
    Opens (some ',') := fun _ h => .inl (Option.some.inj h).symm

theorem opens_parenthesis :
    Opens (some '(') := fun _ h => .inr (Option.some.inj h).symm

/-! ## Scanning -/

theorem finds_joinWith {recognise : Option Char → List Char → Verdict α}
    (hbetween : ∀ c, c = ',' ∨ c = ')' → ∀ previous rest,
      finds recognise previous 0 (c :: rest) = finds recognise (some c) 0 rest)
    {es : List ι} {operand : ι → List Char} {found : ι → List (α × List Char)}
    (h : ∀ e ∈ es, Scans recognise (operand e) (found e))
    {previous : Option Char} (hprevious : Opens previous) (rest : List Char) :
    finds recognise previous 0
      (Text.joinWith [','] (es.map operand) ++ ')' :: rest) =
      es.flatMap found ++ finds recognise (some ')') 0 rest := by
  induction es generalizing previous with
  | nil => exact hbetween ')' (.inr rfl) previous rest
  | cons e es ih =>
      rw [List.forall_mem_cons] at h
      cases es with
      | nil =>
          change finds recognise previous 0 (operand e ++ ')' :: rest) = _
          rw [h.1 previous none _ hprevious (closes_parenthesis rest),
            hbetween ')' (.inr rfl)]
          simp
      | cons e' es =>
          change finds recognise previous 0 (operand e ++ [','] ++
            Text.joinWith [','] ((e' :: es).map operand) ++ ')' :: rest) = _
          rw [List.append_assoc, List.append_assoc, List.singleton_append,
            h.1 previous none _ hprevious (closes_comma _),
            hbetween ',' (.inl rfl), ih h.2 opens_comma]
          simp

section Scanning

variable {recognise : Option Char → List Char → Verdict α} {pattern : List Char}
  (hpass : ∀ previous cs, ¬ pattern <+: cs → recognise previous cs = .pass)
  (hapart : Apart pattern)

include hpass hapart

theorem finds_of_closes {rest : List Char} (h : Closes rest)
    (previous next : Option Char) :
    finds recognise previous 0 rest = finds recognise next 0 rest := by
  cases rest with
  | nil => rfl
  | cons c rest =>
      have hstarts : ¬ pattern <+: c :: rest := hapart c rest (h c rfl)
      rw [finds, finds, hpass _ _ hstarts, hpass _ _ hstarts]

private theorem finds_cons {c : Char} (hc : c = ',' ∨ c = ')')
    (previous : Option Char) (rest : List Char) :
    finds recognise previous 0 (c :: rest) =
      finds recognise (some c) 0 rest := by
  rw [finds, hpass _ _ (hapart c rest hc)]

theorem Scans.of_silent {operand : List Char}
    (h : ∀ rest, Closes rest → Silent pattern operand rest) :
    Scans recognise operand [] := by
  intro previous next rest _ hrest
  rw [Text.finds_of_silent hpass (h rest hrest), List.nil_append]
  exact finds_of_closes hpass hapart hrest _ _

theorem Scans.call {name : String}
    (hname : ∀ rest, Silent pattern (name.toList ++ ['(']) rest) {es : List ι}
    {operand : ι → List Char} {found : ι → List (α × List Char)}
    (h : ∀ e ∈ es, Scans recognise (operand e) (found e)) :
    Scans recognise (callChars name (es.map operand)) (es.flatMap found) := by
  intro previous next rest _ hrest
  rw [callChars, List.append_assoc, Text.finds_of_silent hpass (hname _),
    Text.before_append_singleton, List.append_assoc, List.singleton_append,
    finds_joinWith (fun _ => finds_cons hpass hapart) h opens_parenthesis,
    finds_of_closes hpass hapart hrest (some ')') next]

end Scanning

/-! ## Rewriting -/

section Rewriting

variable {pattern value : List Char} (hapart : Apart pattern)

include hapart

theorem replaceFrom_cons {c : Char} (hc : c = ',' ∨ c = ')')
    (rest : List Char) :
    replaceFrom pattern value 0 (c :: rest) =
      c :: replaceFrom pattern value 0 rest := by
  have hsilent : Silent pattern [c] rest := ⟨hapart c rest hc, trivial⟩
  exact Text.replaceFrom_of_silent hsilent

private theorem replaceFrom_joinWith {es : List ι}
    {operand result : ι → List Char}
    (h : ∀ e ∈ es, Rewrites pattern value (operand e) (result e))
    (rest : List Char) :
    replaceFrom pattern value 0
      (Text.joinWith [','] (es.map operand) ++ ')' :: rest) =
      Text.joinWith [','] (es.map result) ++ ')' ::
        replaceFrom pattern value 0 rest := by
  induction es with
  | nil => exact replaceFrom_cons hapart (.inr rfl) rest
  | cons e es ih =>
      rw [List.forall_mem_cons] at h
      cases es with
      | nil =>
          change replaceFrom pattern value 0 (operand e ++ ')' :: rest) = _
          rw [h.1 _ (closes_parenthesis rest),
            replaceFrom_cons hapart (.inr rfl)]
          rfl
      | cons e' es =>
          change replaceFrom pattern value 0 (operand e ++ [','] ++
            Text.joinWith [','] ((e' :: es).map operand) ++ ')' :: rest) = _
          rw [List.append_assoc, List.append_assoc, List.singleton_append,
            h.1 _ (closes_comma _), replaceFrom_cons hapart (.inl rfl), ih h.2]
          simp [Text.joinWith]

theorem Rewrites.call {name : String}
    (hname : ∀ rest, Silent pattern (name.toList ++ ['(']) rest) {es : List ι}
    {operand result : ι → List Char}
    (h : ∀ e ∈ es, Rewrites pattern value (operand e) (result e)) :
    Rewrites pattern value (callChars name (es.map operand))
      (callChars name (es.map result)) := by
  intro rest _
  rw [callChars, List.append_assoc, Text.replaceFrom_of_silent (hname _),
    List.append_assoc (Text.joinWith _ _), List.singleton_append,
      replaceFrom_joinWith hapart h]
  simp [callChars]

omit hapart in
theorem Rewrites.of_silent {operand : List Char}
    (h : ∀ rest, Closes rest → Silent pattern operand rest) :
    Rewrites pattern value operand operand :=
  fun rest hrest => Text.replaceFrom_of_silent (h rest hrest)

end Rewriting

end ReportDesk.Formula
