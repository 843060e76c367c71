import ReportDesk.Json.Value

/-!
# Cells

A cell holds the code of one column in a row, and possibly a label to show in
its place.
-/

namespace ReportDesk

structure Cell where
  code : String
  label : Option String
deriving DecidableEq, Repr, Inhabited

namespace Cell

def blank : Cell := ⟨"", none⟩

def plain (code : String) : Cell := ⟨code, none⟩

def labelOrCode (c : Cell) : String :=
  c.label.getD c.code

def isEmpty (c : Cell) : Bool :=
  c.code.isEmpty && c.label.all String.isEmpty

inductive Part where
  | code
  | label
deriving DecidableEq, Repr

namespace Part

def name : Part → String
  | .code => "code"
  | .label => "label"

def ofName? (name : String) : Option Part :=
  if name = "code" then some .code
  else if name = "label" then some .label
  else none

def unknownMessage (name : String) : String :=
  "unknown cell part: " ++ name

end Part

def read (c : Cell) : Part → String
  | .code => c.code
  | .label => c.labelOrCode

/-! ## JSON form -/

def toJson (c : Cell) : Json :=
  Json.objectOfPresent
    [("code", some (.string c.code)), ("label", c.label.map .string)]

def ofJson (value : Json) : Json.Decoded Cell := do
  match ← Json.recordFields ["code", "label"] value with
  | [code, label] =>
      return { code := ← Json.withDefault "" Json.asString code
               label := ← Json.optional Json.asString label }
  | _ => Json.mismatch "a cell"

end Cell

end ReportDesk

namespace ReportDesk.Header

/-!
## Field headers

A column may hold one formula per field header.  The header decides which part
of the cell the solved value is written to.
-/

def defaultValue : String := "defaultValue"
def defaultCode : String := "defaultCode"
def codeFormula : String := "codeFormula"
def labelFormula : String := "labelFormula"

inductive Target where
  | code
  | label
  | both
deriving DecidableEq, Repr

/-- Label formulas write the label, code headers the code, all others both. -/
def target (header : String) : Target :=
  if header = labelFormula then .label
  else if header = codeFormula ∨ header = defaultCode then .code
  else .both

end ReportDesk.Header
