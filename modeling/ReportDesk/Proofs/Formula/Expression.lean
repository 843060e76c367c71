import ReportDesk.Formula.Evaluation
import ReportDesk.Proofs.Formula.Plain

/-!
# Expressions

An expression is a tree of calls over literals and references to columns.  It
has a text, which is a formula, and a value from the leaves upwards.
-/

namespace ReportDesk.Formula

def Function.rank (f : Function) : Nat :=
  Function.all.idxOf f

def callChars (name : String) (operands : List (List Char)) : List Char :=
  name.toList ++ ['('] ++ (Text.joinWith [','] operands ++ [')'])

inductive Expression where
  | literal (text : String)
  | column (name : String) (part : Cell.Part)
  | call (function : Function) (operands : List Expression)

namespace Expression

/-! ## Text and value -/

mutual

def chars : Expression → List Char
  | literal text => text.toList
  | column name part => '%' :: (name.toList ++ '.' :: part.name.toList)
  | call f operands => callChars f.name (charsAll operands)

def charsAll : List Expression → List (List Char)
  | [] => []
  | e :: es => e.chars :: charsAll es

end

def text (e : Expression) : String :=
  String.ofList e.chars

mutual

/-- The value when the operands of a call are all evaluated before the call. -/
def value (env : Environment) (row : Row) : Expression → Except Error String
  | literal text => .ok text
  | column name part => .ok (columnValue row name part)
  | call f operands => do
      let operands ← valueAll env row operands
      let written :=
        String.ofList (callChars f.name (operands.map String.toList))
      (callByName env.settings env.ids.uuid written f.name operands).result

def valueAll (env : Environment) (row : Row) :
    List Expression → Except Error (List String)
  | [] => .ok []
  | e :: es => do return (← e.value env row) :: (← valueAll env row es)

end

private theorem charsAll_eq_map (es : List Expression) :
    charsAll es = es.map chars := by
  induction es with
  | nil => rfl
  | cons e es ih => rw [charsAll, ih, List.map_cons]

theorem chars_call (f : Function) (operands : List Expression) :
    (call f operands).chars = callChars f.name (operands.map chars) := by
  rw [chars, charsAll_eq_map]

theorem chars_literals (texts : List String) :
    (texts.map literal).map chars = texts.map String.toList := by
  rw [List.map_map]
  rfl

theorem toList_text (e : Expression) : e.text.toList = e.chars :=
  String.toList_ofList

theorem valueAll_literals (env : Environment) (row : Row)
    (texts : List String) :
    valueAll env row (texts.map literal) = .ok texts := by
  induction texts with
  | nil => rfl
  | cons text texts ih =>
      rw [List.map_cons, valueAll, ih]
      rfl

theorem valueAll_congr {env : Environment} {row : Row} {es : List Expression}
    {f : Expression → Expression}
    (h : ∀ e ∈ es, (f e).value env row = e.value env row) :
    valueAll env row (es.map f) = valueAll env row es := by
  induction es with
  | nil => rfl
  | cons e es ih =>
      rw [List.forall_mem_cons] at h
      rw [List.map_cons, valueAll, valueAll, h.1, ih h.2]

private theorem exists_value_of_valueAll {env : Environment} {row : Row}
    {es : List Expression} {vs : List String}
    (h : valueAll env row es = .ok vs) :
    ∀ e ∈ es, ∃ v, e.value env row = .ok v := by
  induction es generalizing vs with
  | nil => exact fun e hmem => absurd hmem List.not_mem_nil
  | cons e es ih =>
      rw [valueAll] at h
      cases hv : e.value env row with
      | error error =>
          rw [hv] at h
          cases h
      | ok v =>
          rw [hv] at h
          cases hrest : valueAll env row es with
          | error error =>
              rw [hrest] at h
              cases h
          | ok vs =>
              rw [List.forall_mem_cons]
              exact ⟨⟨v, hv⟩, ih hrest⟩

/-! ## Parts -/

mutual

theorem induct {motive : Expression → Prop}
    (literal : ∀ text, motive (literal text))
    (column : ∀ name part, motive (column name part))
    (call : ∀ f operands, (∀ e ∈ operands, motive e) →
      motive (call f operands)) :
    ∀ e, motive e
  | .literal text => literal text
  | .column name part => column name part
  | .call f operands => call f operands (inductAll literal column call operands)

theorem inductAll {motive : Expression → Prop}
    (literal : ∀ text, motive (literal text))
    (column : ∀ name part, motive (column name part))
    (call : ∀ f operands, (∀ e ∈ operands, motive e) →
      motive (call f operands)) :
    ∀ es : List Expression, ∀ e ∈ es, motive e
  | [], _, hmem => absurd hmem List.not_mem_nil
  | e :: es, e', hmem =>
      (List.mem_cons.mp hmem).elim (fun h => h ▸ induct literal column call e)
        (inductAll literal column call es e')

end

attribute [induction_eliminator] induct

mutual

def parts : Expression → List Expression
  | literal text => [literal text]
  | column name part => [column name part]
  | call f operands => call f operands :: partsAll operands

def partsAll : List Expression → List Expression
  | [] => []
  | e :: es => e.parts ++ partsAll es

end

def Calls (e : Expression) (f : Function) : Prop :=
  ∃ operands, call f operands ∈ e.parts

def Refers (e : Expression) (name : String) (part : Cell.Part) : Prop :=
  column name part ∈ e.parts

theorem parts_call (f : Function) (operands : List Expression) :
    (call f operands).parts = call f operands :: operands.flatMap parts := by
  rw [parts]
  congr 1
  induction operands with
  | nil => rfl
  | cons e es ih => rw [partsAll, ih, List.flatMap_cons]

theorem self_mem_parts (e : Expression) : e ∈ e.parts := by
  cases e with
  | literal text => exact List.mem_singleton_self _
  | column name part => exact List.mem_singleton_self _
  | call f operands => exact List.mem_cons_self

theorem mem_parts_of_operand {f : Function} {operands : List Expression}
    {e s : Expression}
    (hmem : e ∈ operands) (h : s ∈ e.parts) : s ∈ (call f operands).parts := by
  rw [parts_call]
  exact List.mem_cons_of_mem _ (List.mem_flatMap.mpr ⟨e, hmem, h⟩)

theorem mem_parts_trans {e s t : Expression} (hs : s ∈ e.parts)
    (ht : t ∈ s.parts) :
    t ∈ e.parts := by
  induction e with
  | literal text =>
      rw [List.mem_singleton.mp hs] at ht
      exact ht
  | column name part =>
      rw [List.mem_singleton.mp hs] at ht
      exact ht
  | call f operands ih =>
      rw [parts_call, List.mem_cons, List.mem_flatMap] at hs
      rcases hs with rfl | ⟨e, hmem, hs⟩
      · exact ht
      · exact mem_parts_of_operand hmem (ih e hmem hs)

theorem exists_value_of_mem_parts {env : Environment} {row : Row}
    {e s : Expression} {v : String} (h : e.value env row = .ok v)
    (hs : s ∈ e.parts) :
    ∃ v, s.value env row = .ok v := by
  induction e generalizing v with
  | literal text =>
      rw [List.mem_singleton.mp hs]
      exact ⟨v, h⟩
  | column name part =>
      rw [List.mem_singleton.mp hs]
      exact ⟨v, h⟩
  | call f operands ih =>
      rw [parts_call, List.mem_cons, List.mem_flatMap] at hs
      rcases hs with rfl | ⟨e, hmem, hs⟩
      · exact ⟨v, h⟩
      · rw [value] at h
        cases hvs : valueAll env row operands with
        | error error =>
            rw [hvs] at h
            cases h
        | ok vs =>
            obtain ⟨w, hw⟩ := exists_value_of_valueAll hvs e hmem
            exact ih e hmem hw hs

/-! ## Well-formed expressions -/

def IsColumnName (name : String) : Prop :=
  name.toList.head?.any Text.isIdentifierStart = true ∧
    name.toList.all Text.isIdentifierChar = true

instance (name : String) : Decidable (IsColumnName name) :=
  inferInstanceAs (Decidable (_ ∧ _))

/--
Literals are plain, columns have identifiers for names, and a call has an
accepted number of operands, in which only earlier functions are called.
-/
inductive Ordered : Expression → Prop where
  | literal {text : String} (hplain : Plain text) : Ordered (literal text)
  | column {name : String} {part : Cell.Part} (hname : IsColumnName name) :
      Ordered (column name part)
  | call {f : Function} {operands : List Expression} (hsum : f ≠ .sum)
      (hnext : f ≠ .next)
      (harity : f.arity.accepts operands.length = true)
      (hoperands : ∀ e ∈ operands, e.Ordered)
      (hearlier : ∀ e ∈ operands, ∀ g, e.Calls g → g.rank < f.rank) :
      Ordered (call f operands)

theorem Ordered.of_mem_parts {e s : Expression} (h : e.Ordered)
    (hs : s ∈ e.parts) :
    s.Ordered := by
  induction h with
  | literal hplain =>
      rw [List.mem_singleton.mp hs]
      exact .literal hplain
  | column hname =>
      rw [List.mem_singleton.mp hs]
      exact .column hname
  | call hsum hnext harity hoperands hearlier ih =>
      rw [parts_call, List.mem_cons, List.mem_flatMap] at hs
      rcases hs with rfl | ⟨e, hmem, hs⟩
      · exact .call hsum hnext harity hoperands hearlier
      · exact ih e hmem hs

end Expression

end ReportDesk.Formula
