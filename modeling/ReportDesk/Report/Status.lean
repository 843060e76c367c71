import ReportDesk.Numeral.Unsigned
import ReportDesk.Text.Character

/-!
# What a report says of itself

A report names its version and its kind, and the status of its dataset.
-/

namespace ReportDesk.Report.Version

/-!
## Versions of a report

A version is a number written as text.  Number zero, or a blank text, is the
first version; a greater number is an amendment.
-/

/-- The number of a version; `none` when the text is no number of 32 bits. -/
def number? (version : String) : Option Nat :=
  if Text.isBlankText version then some 0
  else
    (Numeral.readUnsigned Numeral.word32
      (Text.trimChars version.toList)).toOption

def isBaseline (version : String) : Bool :=
  number? version == some 0

def isAmendment (version : String) : Bool :=
  (number? version).any fun n => 0 < n

def ofNumber (n : Nat) : String :=
  Numeral.padded 2 n

/-- The version after this one; a text that is no number counts as zero. -/
def next (version : String) : String :=
  ofNumber ((number? version).getD 0 + 1)

end ReportDesk.Report.Version

namespace ReportDesk.Report

/-! ## Kinds of reports -/

inductive Kind where
  /-- A monthly report, shown to the user. -/
  | monthly
  /-- A report that sends several amended reports together. -/
  | aggregation
deriving DecidableEq, Repr

namespace Kind

def text : Kind → String
  | .monthly => "SIMPLE_MONTHLY"
  | .aggregation => "COLLECTION_AGGREGATION"

def ofText? (text : String) : Option Kind :=
  if text = Kind.monthly.text then some .monthly
  else if text = Kind.aggregation.text then some .aggregation
  else none

def ofText (text : String) : Kind :=
  if Text.equalIgnoringCase (Text.trim text) Kind.aggregation.text then
    .aggregation
  else .monthly

end Kind

/-! ## The status of a report's dataset -/

inductive Status where
  | draft
  | locallyValidated
  | uploadFailed
  | uploaded
  | processing
  | valid
  | validWithWarnings
  | rejectedEditable
  | rejected
  | submitted
  | acceptedDwh
  | deleted
  /-- A status that this client does not know. -/
  | other
deriving DecidableEq, Repr

namespace Status

def all : List Status :=
  [.draft, .locallyValidated, .uploadFailed, .uploaded, .processing, .valid,
   .validWithWarnings, .rejectedEditable, .rejected, .submitted, .acceptedDwh,
   .deleted, .other]

def text : Status → String
  | .draft => "DRAFT"
  | .locallyValidated => "LOCALLY_VALIDATED"
  | .uploadFailed => "UPLOAD_FAILED"
  | .uploaded => "UPLOADED"
  | .processing => "PROCESSING"
  | .valid => "VALID"
  | .validWithWarnings => "VALID_WITH_WARNINGS"
  | .rejectedEditable => "REJECTED_EDITABLE"
  | .rejected => "REJECTED"
  | .submitted => "SUBMITTED"
  | .acceptedDwh => "ACCEPTED_DWH"
  | .deleted => "DELETED"
  | .other => "OTHER"

def ofText? (text : String) : Option Status :=
  all.find? fun status => status.text == text

/--
The status of a stored text: a blank one is a draft, an unknown one `other`.
-/
def ofText (text : String) : Status :=
  if Text.isBlankText text then .draft
  else
    (all.find? fun status =>
      Text.equalIgnoringCase status.text (Text.trim text)).getD .other

def isEditable : Status → Bool
  | .draft => true
  | .locallyValidated => true
  | .uploadFailed => true
  | .rejectedEditable => true
  | _ => false

def canBeSent : Status → Bool
  | .locallyValidated => true
  | _ => false

def canBeSubmitted : Status → Bool
  | .valid => true
  | .validWithWarnings => true
  | _ => false

def canBeRefreshed : Status → Bool
  | .uploaded => true
  | .processing => true
  | .valid => true
  | .validWithWarnings => true
  | .submitted => true
  | .other => true
  | _ => false

def isFinalized : Status → Bool
  | .acceptedDwh => true
  | .rejected => true
  | .deleted => true
  | _ => false

end Status

end ReportDesk.Report
