/-!
# Scanning a text for what a recogniser finds

A scan walks over the text from left to right.  At each position the
recogniser sees the character before it and the rest of the text; what it
finds is consumed, so the occurrences of one scan never overlap.
-/

namespace ReportDesk.Text

/-!
## Cutting a text at byte offsets

Positions in a formula are counted in bytes of its UTF-8 form.
-/

def byteLength (cs : List Char) : Nat :=
  cs.foldr (fun c length => c.utf8Size + length) 0

def takeBytes : Nat → List Char → List Char
  | _, [] => []
  | 0, _ => []
  | n + 1, c :: cs => c :: takeBytes (n + 1 - c.utf8Size) cs

def dropBytes : Nat → List Char → List Char
  | _, [] => []
  | 0, cs => cs
  | n + 1, c :: cs => dropBytes (n + 1 - c.utf8Size) cs

@[simp] theorem byteLength_nil : byteLength [] = 0 := rfl

@[simp] theorem byteLength_cons (c : Char) (cs : List Char) :
    byteLength (c :: cs) = c.utf8Size + byteLength cs := rfl

@[simp] theorem byteLength_append (cs ds : List Char) :
    byteLength (cs ++ ds) = byteLength cs + byteLength ds := by
  induction cs with
  | nil => simp
  | cons c cs ih =>
      rw [List.cons_append, byteLength_cons, byteLength_cons, ih, Nat.add_assoc]

theorem byteLength_ofList (cs : List Char) :
    byteLength cs = (String.ofList cs).utf8ByteSize := by
  induction cs with
  | nil => simp
  | cons c cs ih =>
      rw [byteLength_cons, ih, String.ofList_cons, String.utf8ByteSize_append,
        String.utf8ByteSize_singleton]

@[simp] theorem byteLength_toList (s : String) :
    byteLength s.toList = s.utf8ByteSize := by
  rw [byteLength_ofList, String.ofList_toList]

@[simp] theorem takeBytes_zero (cs : List Char) : takeBytes 0 cs = [] := by
  cases cs <;> rfl

@[simp] theorem dropBytes_zero (cs : List Char) : dropBytes 0 cs = cs := by
  cases cs <;> rfl

theorem takeBytes_cons {n : Nat} (c : Char) (cs : List Char) (h : n ≠ 0) :
    takeBytes n (c :: cs) = c :: takeBytes (n - c.utf8Size) cs := by
  cases n with
  | zero => exact absurd rfl h
  | succ n => rfl

theorem dropBytes_cons {n : Nat} (c : Char) (cs : List Char) (h : n ≠ 0) :
    dropBytes n (c :: cs) = dropBytes (n - c.utf8Size) cs := by
  cases n with
  | zero => exact absurd rfl h
  | succ n => rfl

theorem takeBytes_byteLength (cs ds : List Char) :
    takeBytes (byteLength cs) (cs ++ ds) = cs := by
  induction cs with
  | nil => simp
  | cons c cs ih =>
      have h : byteLength (c :: cs) ≠ 0 := by
        have := c.utf8Size_pos
        simp
        omega
      rw [List.cons_append, takeBytes_cons c (cs ++ ds) h]
      simp [ih]

theorem dropBytes_byteLength (cs ds : List Char) :
    dropBytes (byteLength cs) (cs ++ ds) = ds := by
  induction cs with
  | nil => simp
  | cons c cs ih =>
      have h : byteLength (c :: cs) ≠ 0 := by
        have := c.utf8Size_pos
        simp
        omega
      rw [List.cons_append, dropBytes_cons c (cs ++ ds) h]
      simp [ih]

/-! ## Scans -/

/-- What a recogniser says about one position; lengths count characters. -/
inductive Verdict (α : Type) where
  | pass
  | skip (length : Nat)
  | found (value : α) (length : Nat)

structure Occurrence (α : Type) where
  value : α
  start : Nat
  covered : List Char
deriving Repr

def Occurrence.stop {α : Type} (o : Occurrence α) : Nat :=
  o.start + byteLength o.covered

/--
Scans on with the character before the rest, its byte offset and the number of
characters that are already consumed.
-/
def scanFrom {α : Type} (recognise : Option Char → List Char → Verdict α) :
    Option Char → Nat → Nat → List Char → List (Occurrence α)
  | _, _, _, [] => []
  | _, offset, skip + 1, c :: cs =>
      scanFrom recognise (some c) (offset + c.utf8Size) skip cs
  | before, offset, 0, c :: cs =>
      match recognise before (c :: cs) with
      | .pass => scanFrom recognise (some c) (offset + c.utf8Size) 0 cs
      | .skip length =>
          scanFrom recognise (some c) (offset + c.utf8Size) (length - 1) cs
      | .found value length =>
          ⟨value, offset, (c :: cs).take length⟩ ::
            scanFrom recognise (some c) (offset + c.utf8Size) (length - 1) cs

def scan {α : Type} (recognise : Option Char → List Char → Verdict α)
    (text : List Char) : List (Occurrence α) :=
  scanFrom recognise none 0 0 text

end ReportDesk.Text
