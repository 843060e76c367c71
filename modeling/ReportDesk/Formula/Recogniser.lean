import ReportDesk.Formula.Fragment
import ReportDesk.Text.Replace

/-!
# Finding the fragments of a formula

There is one recogniser for each form of a fragment, and one scan for each
kind.  A call runs to the first closing parenthesis.
-/

namespace ReportDesk.Formula

open Text (Verdict Occurrence)

/-! ## Names after a percent sign -/

def isCapitalIdentifierChar (c : Char) : Bool :=
  c.isUpper || c.isDigit || c == '_'

/-- A name may not run on into a point or into another identifier. -/
def endsName : List Char → Bool
  | [] => true
  | c :: _ => c != '.' && !Text.isIdentifierChar c

def recogniseName {α : Type} (lookup? : String → Option α) (_ : Option Char) :
    List Char → Verdict α
  | '%' :: rest =>
      let name := rest.takeWhile isCapitalIdentifierChar
      let after := rest.dropWhile isCapitalIdentifierChar
      if name.head?.any Char.isUpper && endsName after then
        match lookup? (String.ofList name) with
        | some value => .found value (name.length + 1)
        | none => .pass
      else .pass
  | _ => .pass

def partAtStart? (cs : List Char) : Option Cell.Part :=
  if "code".toList.isPrefixOf cs then some .code
  else if "label".toList.isPrefixOf cs then some .label
  else none

def recogniseColumn (_ : Option Char) : List Char → Verdict (String × Cell.Part)
  | '%' :: rest =>
      let name := rest.takeWhile Text.isIdentifierChar
      if name.head?.any Text.isIdentifierStart then
        match rest.dropWhile Text.isIdentifierChar with
        | '.' :: after =>
            match partAtStart? after with
            | some part =>
                .found (String.ofList name, part)
                  (name.length + 2 + part.name.length)
            | none => .pass
        | _ => .pass
      else .pass
  | _ => .pass

def findKeywords (keywords : Keywords) (text : String) : List Fragment :=
  let known (name : String) :=
    if keywords.contains name then some name else none
  (Text.scan (recogniseName known) text.toList).map
    (Fragment.ofOccurrence .keyword)

def findRowKeywords (text : String) : List Fragment :=
  (Text.scan (recogniseName RowKeyword.ofName?) text.toList).map
    (Fragment.ofOccurrence .rowKeyword)

def findColumns (text : String) : List Fragment :=
  (Text.scan recogniseColumn text.toList).map
    (Fragment.ofOccurrence fun (column, part) => .column column part)

/-! ## Comparisons -/

def isOperandChar (c : Char) : Bool :=
  c != '(' && c != ')' && c != ',' && c != '=' && c != '!'

/--
A comparator between the longest operands around it.  Where none follows an
operand, none follows a part of the operand either, and all of it is skipped.
-/
def recogniseComparison (comparator : Comparator) (_ : Option Char)
    (cs : List Char) : Verdict (String × String) :=
  let lhs := cs.takeWhile isOperandChar
  let symbol := comparator.symbol.toList
  match symbol.isPrefixOf? (cs.dropWhile isOperandChar) with
  | some after =>
      let rhs := after.takeWhile isOperandChar
      .found (String.ofList lhs, String.ofList rhs)
        (lhs.length + symbol.length + rhs.length)
  | none => .skip lhs.length

def findComparisons (comparator : Comparator) (text : String) : List Fragment :=
  (Text.scan (recogniseComparison comparator) text.toList).map
    (Fragment.ofOccurrence fun (lhs, rhs) => .comparison lhs comparator rhs)

/-! ## Calls -/

inductive CallBody where
  | closed (body : List Char)
  | unclosed
deriving DecidableEq, Repr

/--
A call of `name`.  Where an identifier runs into the name there is no call; an
unclosed call takes all of the text.
-/
def recogniseCall (name : String) (before : Option Char) (cs : List Char) :
    Verdict CallBody :=
  let opener := name.toList ++ ['(']
  match opener.isPrefixOf? cs with
  | none => .pass
  | some after =>
      if before.any Text.isIdentifierChar then .skip opener.length
      else if after.contains ')' then
        let body := after.takeWhile (· != ')')
        .found (.closed body) (opener.length + body.length + 1)
      else .found .unclosed cs.length

structure ClosedCall where
  start : Nat
  text : String
  body : List Char
deriving DecidableEq, Repr

def closedCalls : List (Occurrence CallBody) → Except Error (List ClosedCall)
  | [] => .ok []
  | o :: rest =>
      match o.value with
      | .unclosed => .error (.unclosedCall (String.ofList o.covered))
      | .closed body =>
          (closedCalls rest).map (⟨o.start, String.ofList o.covered, body⟩ :: ·)

def findClosedCalls (name text : String) : Except Error (List ClosedCall) :=
  closedCalls (Text.scan (recogniseCall name) text.toList)

def operandsOf (body : List Char) : List String :=
  if body.isEmpty then [] else (Text.splitAt ',' body).map String.ofList

def callFragment (name : String) (call : ClosedCall) : Except Error Fragment :=
  if call.body.contains '(' then .error (.malformedCall call.text)
  else .ok ⟨.call name (operandsOf call.body), call.text, call.start⟩

def findCalls (name text : String) : Except Error (List Fragment) := do
  (← findClosedCalls name text).mapM (callFragment name)

/-! ## Relations -/

def relationName : String := "RELATION"

def splitLastPoint? (cs : List Char) : Option (List Char × List Char) :=
  let after := (cs.reverse.takeWhile (· != '.')).reverse
  match (cs.reverse.dropWhile (· != '.')) with
  | [] => none
  | _ :: before => some (before.reverse, after)

/-- A field and the part behind its last point; without one the code is read. -/
def fieldAndPart (field : List Char) : String × Cell.Part :=
  match splitLastPoint? field with
  | some (before, after) =>
      match Cell.Part.ofName? (String.ofList after) with
      | some part => (String.ofList before, part)
      | none => (String.ofList field, .code)
  | none => (String.ofList field, .code)

def relationOf? (body : List Char) : Option Reference :=
  if body.contains '(' then none
  else
    match Text.splitAt ',' body with
    | [parent, field] =>
        let parent := Text.trimChars parent
        let (field, part) := fieldAndPart (Text.trimChars field)
        if parent.isEmpty || field.isEmpty then none
        else some (.relation (String.ofList parent) field part)
    | _ => none

def relationFragment (call : ClosedCall) : Except Error Fragment :=
  match relationOf? call.body with
  | some reference => .ok ⟨reference, call.text, call.start⟩
  | none => .error (.malformedRelation call.text)

def findRelations (text : String) : Except Error (List Fragment) := do
  (← findClosedCalls relationName text).mapM relationFragment

end ReportDesk.Formula
