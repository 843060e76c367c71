/-!
# Replacing every occurrence of a text

The occurrences are found from left to right and do not overlap.
-/

namespace ReportDesk.Text

/--
Replaces the occurrences of `pattern` by `value`.  The number counts the
characters that an occurrence already replaced still covers.
-/
def replaceFrom (pattern value : List Char) : Nat → List Char → List Char
  | _, [] => []
  | skip + 1, _ :: cs => replaceFrom pattern value skip cs
  | 0, c :: cs =>
      if pattern.isPrefixOf (c :: cs) then
        value ++ replaceFrom pattern value (pattern.length - 1) cs
      else
        c :: replaceFrom pattern value 0 cs

def occursIn (pattern : List Char) : List Char → Bool
  | [] => false
  | c :: cs => pattern.isPrefixOf (c :: cs) || occursIn pattern cs

/--
The text with every occurrence of `pattern` replaced by `value`; a text
without one is not copied.
-/
def replaceAll (pattern value text : List Char) : List Char :=
  if occursIn pattern text then replaceFrom pattern value 0 text else text

def splitAt (separator : Char) : List Char → List (List Char)
  | [] => [[]]
  | c :: cs =>
      if c = separator then
        [] :: splitAt separator cs
      else
        match splitAt separator cs with
        | [] => [[c]]
        | piece :: pieces => (c :: piece) :: pieces

def joinWith (separator : List Char) : List (List Char) → List Char
  | [] => []
  | [piece] => piece
  | piece :: pieces => piece ++ separator ++ joinWith separator pieces

theorem splitAt_ne_nil (separator : Char) (cs : List Char) :
    splitAt separator cs ≠ [] := by
  cases cs with
  | nil => simp [splitAt]
  | cons c cs =>
      rw [splitAt]
      split
      · simp
      · split <;> simp

theorem joinWith_splitAt (separator : Char) (cs : List Char) :
    joinWith [separator] (splitAt separator cs) = cs := by
  induction cs with
  | nil => rfl
  | cons c cs ih =>
      rw [splitAt]
      split
      next h =>
        subst h
        cases hs : splitAt c cs with
        | nil => exact absurd hs (splitAt_ne_nil _ _)
        | cons piece pieces => simpa [joinWith, hs] using ih
      next h =>
        cases hs : splitAt separator cs with
        | nil => exact absurd hs (splitAt_ne_nil _ _)
        | cons piece pieces =>
            cases pieces with
            | nil => simpa [joinWith, hs] using ih
            | cons next pieces => simpa [joinWith, hs] using ih

theorem replaceFrom_of_not_occursIn {pattern text : List Char}
    (value : List Char) (h : occursIn pattern text = false) :
    replaceFrom pattern value 0 text = text := by
  induction text with
  | nil => rfl
  | cons c cs ih =>
      rw [occursIn, Bool.or_eq_false_iff] at h
      simp [replaceFrom, h.1, ih h.2]

theorem replaceAll_eq (pattern value text : List Char) :
    replaceAll pattern value text = replaceFrom pattern value 0 text := by
  unfold replaceAll
  split
  next => rfl
  next h => exact (replaceFrom_of_not_occursIn value (by simpa using h)).symm

theorem replaceFrom_skip (pattern value : List Char) (n : Nat)
    (cs : List Char) :
    replaceFrom pattern value n cs =
      replaceFrom pattern value 0 (cs.drop n) := by
  induction n generalizing cs with
  | zero => simp
  | succ n ih =>
      cases cs with
      | nil => simp [replaceFrom]
      | cons c cs => simp [replaceFrom, ih]

end ReportDesk.Text
