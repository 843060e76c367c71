import ReportDesk.Display.Wrap

/-!
# The widths of the columns

The columns of a table share a limited number of places.  A column that fits
into an equal share of the places left takes only what it needs; then a
column whose wrapped lines leave a good part of the share unused takes only
the width of these lines; the others share out what is left.  There is one
width for each column (`length_widths`).
-/

namespace ReportDesk.Display

structure GridColumn where
  lines : List (List Char)
  width : Option Nat

namespace GridColumn

def widest (lines : List (List Char)) : Nat :=
  (lines.map List.length).foldl max 1

def wholeWidth? (share : Nat) (lines : List (List Char)) : Option Nat :=
  if widest lines ≤ share then some (widest lines) else none

/-- Wrapping has to leave this much of a share to be worth a narrower column. -/
def worthwhile : Nat := 3

def wrappedWidth? (share : Nat) (lines : List (List Char)) : Option Nat :=
  let width := widest (lines.flatMap (wrap share))
  if worthwhile ≤ share - width then some width else none

def placesLeft (room : Nat) (columns : List GridColumn) : Nat :=
  room - (columns.filterMap GridColumn.width).foldl (· + ·) 0

def undecided (columns : List GridColumn) : Nat :=
  columns.countP fun column => column.width.isNone

/--
Offers each undecided column in turn an equal share of the places left, and
decides those for which `fit` finds a width.
-/
def offerFrom (fit : Nat → List (List Char) → Option Nat) :
    Nat → Nat → List GridColumn → List GridColumn
  | _, _, [] => []
  | left, waiting, column :: columns =>
      match column.width with
      | some _ => column :: offerFrom fit left waiting columns
      | none =>
          match fit (left / waiting) column.lines with
          | some width =>
              { column with width := some width } ::
                offerFrom fit (left - width) (waiting - 1) columns
          | none => column :: offerFrom fit left waiting columns

def offer (fit : Nat → List (List Char) → Option Nat) (room : Nat)
    (columns : List GridColumn) : List GridColumn :=
  offerFrom fit (placesLeft room columns) (undecided columns) columns

/--
Offers until no column changes.  A round that changes something decides a
column, so as many rounds as there are columns are enough.
-/
def offerAll (fit : Nat → List (List Char) → Option Nat) (room : Nat)
    (columns : List GridColumn) : List GridColumn :=
  Nat.repeat (offer fit room) columns.length columns

/-- Every undecided column gets the share, and the first ones one place more. -/
def shareOut (share : Nat) : Nat → List GridColumn → List Nat
  | _, [] => []
  | excess, column :: columns =>
      match column.width with
      | some width => width :: shareOut share excess columns
      | none =>
          (if excess = 0 then share else share + 1) ::
            shareOut share (excess - 1) columns

def widths (room : Nat) (contents : List (List (List Char))) : List Nat :=
  let columns := contents.map fun lines => { lines, width := none }
  let decided := offerAll wrappedWidth? room (offerAll wholeWidth? room columns)
  let waiting := undecided decided
  let left := max waiting (placesLeft room decided)
  shareOut (left / waiting) (left % waiting) decided

@[simp] theorem length_offerFrom (fit : Nat → List (List Char) → Option Nat)
    (left waiting : Nat) (columns : List GridColumn) :
    (offerFrom fit left waiting columns).length = columns.length := by
  induction columns generalizing left waiting with
  | nil => rfl
  | cons column columns ih =>
      rw [offerFrom]
      split
      · simp [ih]
      · split <;> simp [ih]

theorem length_offerAll (fit : Nat → List (List Char) → Option Nat) (room : Nat)
    (columns : List GridColumn) :
    (offerAll fit room columns).length = columns.length := by
  have rounds (n : Nat) (start : List GridColumn) :
      (Nat.repeat (offer fit room) n start).length = start.length := by
    induction n with
    | zero => rfl
    | succ n ih => simp [Nat.repeat, offer, ih]
  exact rounds _ _

@[simp] theorem length_shareOut (share excess : Nat)
    (columns : List GridColumn) :
    (shareOut share excess columns).length = columns.length := by
  induction columns generalizing excess with
  | nil => rfl
  | cons column columns ih =>
      rw [shareOut]
      split <;> simp [ih]

theorem length_widths (room : Nat) (contents : List (List (List Char))) :
    (widths room contents).length = contents.length := by
  simp [widths, length_offerAll]

end GridColumn

end ReportDesk.Display
