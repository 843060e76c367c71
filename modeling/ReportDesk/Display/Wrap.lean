import ReportDesk.Text.Replace

/-!
# Wrapping a line into a column

A line that is wider than its column is broken at blanks.  A word that does
not fit on the open line moves to the next one; only a word that is wider than
the whole column is cut itself.  No line is wider than the column
(`length_le_of_mem_wrap`).
-/

namespace ReportDesk.Display

/-- A line with no more free places than this takes no further word. -/
def closingRoom : Nat := 2

structure Filled where
  full : List (List Char)
  rest : List Char

def Filled.after (line : List Char) (filled : Filled) : Filled :=
  { filled with full := line :: filled.full }

def settle (width : Nat) (line : List Char) : Filled :=
  if width - closingRoom < line.length then ⟨[line], []⟩ else ⟨[], line⟩

def startLine (width : Nat) (word : List Char) : Filled :=
  if 0 < width ∧ width < word.length then
    (startLine width (word.drop width)).after (word.take width)
  else
    settle width word
termination_by word.length
decreasing_by
  rename_i h
  rw [List.length_drop]
  omega

/--
A word after the open line.  It stays whole if it fits on some line; a wider
one first uses the room that the open line still has.
-/
def place (width : Nat) (line word : List Char) : Filled :=
  let free := width - line.length - 1
  if line.isEmpty then
    startLine width word
  else if line.length + 1 + word.length ≤ width then
    settle width (line ++ ' ' :: word)
  else if free ≤ closingRoom ∨ word.length ≤ width then
    (startLine width word).after line
  else
    (startLine width (word.drop free)).after (line ++ ' ' :: word.take free)

def fill (width : Nat) : List Char → List (List Char) → List (List Char)
  | line, [] => if line.isEmpty then [] else [line]
  | line, word :: words =>
      let filled := place width line word
      filled.full ++ fill width filled.rest words

def wrap (width : Nat) (line : List Char) : List (List Char) :=
  if line.length ≤ width then [line] else fill width [] (Text.splitAt ' ' line)

def Filled.FitsIn (width : Nat) (filled : Filled) : Prop :=
  (∀ line ∈ filled.full, line.length ≤ width) ∧ filled.rest.length ≤ width

theorem Filled.FitsIn.after {width : Nat} {line : List Char} {filled : Filled}
    (h : filled.FitsIn width) (hline : line.length ≤ width) :
    (filled.after line).FitsIn width := by
  refine ⟨fun l hl => ?_, h.2⟩
  rcases List.mem_cons.1 hl with rfl | hl
  · exact hline
  · exact h.1 l hl

theorem settle_fitsIn {width : Nat} {line : List Char}
    (h : line.length ≤ width) :
    (settle width line).FitsIn width := by
  unfold settle
  split <;> simp [Filled.FitsIn, h]

theorem startLine_fitsIn {width : Nat} (hwidth : 0 < width) (word : List Char) :
    (startLine width word).FitsIn width := by
  fun_induction startLine width word with
  | case1 word h ih => exact ih.after (by rw [List.length_take]; omega)
  | case2 word h => exact settle_fitsIn (by omega)

theorem place_fitsIn {width : Nat} (hwidth : 0 < width) {line : List Char}
    (hline : line.length ≤ width) (word : List Char) :
    (place width line word).FitsIn width := by
  simp only [place]
  split
  · exact startLine_fitsIn hwidth word
  · split
    next h => exact settle_fitsIn (by simp; omega)
    next h =>
      split
      · exact (startLine_fitsIn hwidth word).after hline
      next hfree =>
        refine (startLine_fitsIn hwidth _).after ?_
        simp only [List.length_append, List.length_cons, List.length_take]
        omega

theorem length_le_of_mem_fill {width : Nat} (hwidth : 0 < width)
    {line : List Char} (hline : line.length ≤ width) {words : List (List Char)}
    {l : List Char} (hl : l ∈ fill width line words) : l.length ≤ width := by
  induction words generalizing line with
  | nil =>
      rw [fill] at hl
      split at hl <;> simp_all
  | cons word words ih =>
      have h := place_fitsIn hwidth hline word
      rcases List.mem_append.1 hl with hl | hl
      · exact h.1 l hl
      · exact ih h.2 hl

theorem length_le_of_mem_wrap {width : Nat} (hwidth : 0 < width)
    {line l : List Char} (hl : l ∈ wrap width line) : l.length ≤ width := by
  unfold wrap at hl
  split at hl
  · simp_all
  · exact length_le_of_mem_fill hwidth (Nat.zero_le _) hl

end ReportDesk.Display
