import ReportDesk.Proofs.Formula.Segment

/-!
# Calls in a formula

A name with a parenthesis is found where a call of that name starts and
nowhere else: no name of a function ends another one.  Two calls of one name
have the same text only when they have the same operands.
-/

namespace ReportDesk.Formula

open Text (Verdict Silent)

/-! ## Names -/

structure IsName (name : String) : Prop where
  nonempty : name.toList ≠ []
  identifier : ∀ c ∈ name.toList, Text.isIdentifierChar c = true

theorem IsName.not_mem {name : String} (h : IsName name) {sign : Char}
    (hsign : isSign sign = true) : sign ∉ name.toList := by
  intro hmem
  rw [isSign_of_isIdentifierChar (h.identifier sign hmem)] at hsign
  cases hsign

theorem Function.isName (f : Function) : IsName f.name := by
  cases f <;> exact ⟨by decide, List.all_eq_true.mp (by decide)⟩

theorem isName_relation : IsName relationName :=
  ⟨by decide, List.all_eq_true.mp (by decide)⟩

theorem Function.not_suffix {f g : Function} (h : f ≠ g) :
    ¬ f.name.toList <:+ g.name.toList := by
  cases f <;> cases g <;> first | exact absurd rfl h | decide

private theorem Function.not_suffix_tail (f : Function) :
    ¬ f.name.toList <:+ f.name.toList.tail := by
  cases f <;> decide

theorem not_suffix_relation (f : Function) :
    ¬ relationName.toList <:+ f.name.toList := by
  cases f <;> decide

/-! ## Openers -/

theorem eq_of_isPrefix {sign : Char} {as bs rest : List Char} (has : sign ∉ as)
    (hbs : sign ∉ bs) (h : as ++ [sign] <+: bs ++ sign :: rest) : as = bs := by
  induction as generalizing bs with
  | nil =>
      cases bs with
      | nil => rfl
      | cons b bs =>
          have heq : sign = b := (List.cons_prefix_cons.mp h).1
          exact absurd (heq ▸ List.mem_cons_self) hbs
  | cons a as ih =>
      cases bs with
      | nil =>
          have heq : a = sign := (List.cons_prefix_cons.mp h).1
          exact absurd (heq ▸ List.mem_cons_self) has
      | cons b bs =>
          rw [List.mem_cons, not_or] at has hbs
          obtain ⟨rfl, hrest⟩ := List.cons_prefix_cons.mp h
          rw [ih has.2 hbs.2 hrest]

def opener (name : String) : List Char :=
  name.toList ++ ['(']

theorem silent_opener {name : String} (hname : IsName name)
    {cs rest : List Char} (hcs : '(' ∉ cs) (hsuffix : ¬ name.toList <:+ cs) :
    Silent (opener name) (cs ++ ['(']) rest := by
  have hopen : '(' ∉ name.toList := hname.not_mem (by decide)
  induction cs with
  | nil =>
      refine ⟨fun hstarts => ?_, trivial⟩
      have heq : name.toList = [] :=
        eq_of_isPrefix hopen List.not_mem_nil hstarts
      exact hname.nonempty heq
  | cons c cs ih =>
      rw [List.mem_cons, not_or] at hcs
      refine ⟨fun hstarts => hsuffix ?_, ih hcs.2 fun h =>
        hsuffix (h.trans (List.suffix_cons c cs))⟩
      change opener name <+: c :: cs ++ ['('] ++ rest at hstarts
      rw [List.append_assoc, List.singleton_append] at hstarts
      have heq : name.toList = c :: cs :=
        eq_of_isPrefix hopen (by rw [List.mem_cons, not_or]; exact hcs) hstarts
      exact heq ▸ List.suffix_refl _

theorem apart_opener {name : String} (hname : IsName name) :
    Apart (opener name) := by
  rintro c rest hc hstarts
  obtain ⟨first, cs, hcs⟩ := List.exists_cons_of_ne_nil hname.nonempty
  rw [opener, hcs] at hstarts
  have heq : first = c := (List.cons_prefix_cons.mp hstarts).1
  have hfirst := hname.identifier first (by rw [hcs]; exact List.mem_cons_self)
  rcases hc with rfl | rfl
  · exact absurd (heq ▸ hfirst) (by decide)
  · exact absurd (heq ▸ hfirst) (by decide)

theorem silent_opener_of_not_mem {name : String} (hname : IsName name)
    {cs rest : List Char}
    (hcs : '(' ∉ cs) (hrest : Closes rest) : Silent (opener name) cs rest := by
  have hlast : '(' ∈ opener name := List.mem_append_right _ List.mem_cons_self
  refine Text.silent_of_mem hlast hcs fun c hc hmem => ?_
  have hopen : c ∉ name.toList := by
    rcases hrest c hc with rfl | rfl
    · exact hname.not_mem (by decide)
    · exact hname.not_mem (by decide)
  rcases List.mem_append.mp hmem with hmem | hmem
  · exact hopen hmem
  · rcases hrest c hc with rfl | rfl
    · exact absurd hmem (by decide)
    · exact absurd hmem (by decide)

theorem recogniseCall_eq_pass {name : String} {previous : Option Char}
    {cs : List Char}
    (h : ¬ opener name <+: cs) : recogniseCall name previous cs = .pass := by
  cases hafter : (opener name).isPrefixOf? cs with
  | none =>
      rw [opener] at hafter
      simp only [recogniseCall, hafter]
  | some after =>
      rw [List.isPrefixOf?_eq_some_iff_append_eq] at hafter
      exact absurd ⟨after, hafter⟩ h

theorem bne_of_not_mem {sign : Char} {cs : List Char} (h : sign ∉ cs) :
    ∀ c ∈ cs, (c != sign) = true := by
  intro c hc
  rw [bne_iff_ne]
  rintro rfl
  exact h hc

section Recognising

variable {name : String} {previous : Option Char}

theorem recogniseCall_of_unclosed {ahead : List Char}
    (hprevious : previous.any Text.isIdentifierChar = false) (h : ')' ∉ ahead) :
    recogniseCall name previous (opener name ++ ahead) =
      .found .unclosed (opener name ++ ahead).length := by
  have hafter : (opener name).isPrefixOf? (opener name ++ ahead) = some ahead :=
    List.isPrefixOf?_eq_some_iff_append_eq.mpr rfl
  have hcontains : ahead.contains ')' = false := by simpa using h
  rw [opener] at hafter ⊢
  simp only [recogniseCall, hafter, hprevious, hcontains, if_false,
    Bool.false_eq_true]

theorem recogniseCall_of_closed {inside rest : List Char}
    (hprevious : previous.any Text.isIdentifierChar = false)
    (h : ')' ∉ inside) :
    recogniseCall name previous (opener name ++ (inside ++ ')' :: rest)) =
      .found (.closed inside) (opener name ++ (inside ++ [')'])).length := by
  have hafter : (opener name).isPrefixOf?
      (opener name ++ (inside ++ ')' :: rest)) =
      some (inside ++ ')' :: rest) :=
    List.isPrefixOf?_eq_some_iff_append_eq.mpr rfl
  have hcontains : (inside ++ ')' :: rest).contains ')' = true := by simp
  have hbody : (inside ++ ')' :: rest).takeWhile (· != ')') = inside := by
    rw [List.takeWhile_append_of_pos (bne_of_not_mem h)]
    simp
  rw [opener] at hafter ⊢
  simp only [recogniseCall, hafter, hprevious, hcontains, hbody, if_true,
    if_false, Bool.false_eq_true]
  congr 1
  simp only [List.length_append, List.length_singleton]
  omega

end Recognising

/-! ## Operands between commas -/

theorem splitAt_append {piece rest : List Char} (h : ',' ∉ piece) :
    Text.splitAt ',' (piece ++ ',' :: rest) =
      piece :: Text.splitAt ',' rest := by
  induction piece with
  | nil => simp [Text.splitAt]
  | cons c piece ih =>
      rw [List.mem_cons, not_or] at h
      rw [List.cons_append, Text.splitAt, if_neg (Ne.symm h.1), ih h.2]

theorem splitAt_of_not_mem {piece : List Char} (h : ',' ∉ piece) :
    Text.splitAt ',' piece = [piece] := by
  induction piece with
  | nil => rfl
  | cons c piece ih =>
      rw [List.mem_cons, not_or] at h
      rw [Text.splitAt, if_neg (Ne.symm h.1), ih h.2]

theorem separator_not_mem_of_mem_splitAt {separator : Char}
    {cs piece : List Char}
    (h : piece ∈ Text.splitAt separator cs) : separator ∉ piece := by
  induction cs generalizing piece with
  | nil =>
      obtain rfl := List.mem_singleton.mp h
      exact List.not_mem_nil
  | cons c cs ih =>
      rw [Text.splitAt] at h
      split at h
      next =>
        rcases List.mem_cons.mp h with rfl | h
        · exact List.not_mem_nil
        · exact ih h
      next hc =>
        cases hpieces : Text.splitAt separator cs with
        | nil => exact absurd hpieces (Text.splitAt_ne_nil separator cs)
        | cons first pieces =>
            rw [hpieces] at h ih
            rcases List.mem_cons.mp h with rfl | h
            · rw [List.mem_cons, not_or]
              exact ⟨Ne.symm hc, ih List.mem_cons_self⟩
            · exact ih (List.mem_cons_of_mem first h)

theorem splitAt_joinWith {pieces : List (List Char)} (hne : pieces ≠ [])
    (h : ∀ piece ∈ pieces, ',' ∉ piece) :
    Text.splitAt ',' (Text.joinWith [','] pieces) = pieces := by
  induction pieces with
  | nil => exact absurd rfl hne
  | cons piece pieces ih =>
      rw [List.forall_mem_cons] at h
      cases pieces with
      | nil => exact splitAt_of_not_mem h.1
      | cons next pieces =>
          rw [Text.joinWith, List.append_assoc, List.singleton_append,
            splitAt_append h.1, ih (List.cons_ne_nil _ _) h.2]
          exact List.cons_ne_nil _ _

theorem mem_joinWith {pieces : List (List Char)} {c : Char} (hc : c ≠ ',')
    (h : ∀ piece ∈ pieces, c ∉ piece) : c ∉ Text.joinWith [','] pieces := by
  induction pieces with
  | nil => exact List.not_mem_nil
  | cons piece pieces ih =>
      rw [List.forall_mem_cons] at h
      cases pieces with
      | nil => exact h.1
      | cons next pieces =>
          rw [Text.joinWith]
          · simp [h.1, hc, ih h.2]
          · exact List.cons_ne_nil _ _

theorem not_mem_callChars (f : Function) {sign : Char}
    (hsign : isSign sign = true) (hbetween : sign ∉ ['(', ',', ')'])
    {operands : List (List Char)} (h : ∀ operand ∈ operands, sign ∉ operand) :
    sign ∉ callChars f.name operands := by
  simp only [List.mem_cons, List.not_mem_nil, or_false, not_or] at hbetween
  obtain ⟨hopen, hcomma, hclose⟩ := hbetween
  simp only [callChars, List.mem_append, List.mem_singleton, not_or]
  exact ⟨⟨f.isName.not_mem hsign, hopen⟩, mem_joinWith hcomma h, hclose⟩

structure Readable (operands : List (List Char)) : Prop where
  nonempty : operands ≠ []
  comma : ∀ operand ∈ operands, ',' ∉ operand
  opening : ∀ operand ∈ operands, '(' ∉ operand
  closing : ∀ operand ∈ operands, ')' ∉ operand

theorem readable_of_plain {texts : List String} (hne : texts ≠ [])
    (h : ∀ text ∈ texts, Plain text) : Readable (texts.map String.toList) := by
  have hsign (sign : Char) (hs : isSign sign = true) :
      ∀ operand ∈ texts.map String.toList, sign ∉ operand := by
    intro operand hmem
    obtain ⟨text, htext, rfl⟩ := List.mem_map.mp hmem
    exact (h text htext).not_mem hs
  refine ⟨?_, hsign ',' (by decide), hsign '(' (by decide),
    hsign ')' (by decide)⟩
  rwa [Ne, List.map_eq_nil_iff]

private theorem joinWith_ne_nil {operands : List (List Char)}
    (h : 2 ≤ operands.length) :
    Text.joinWith [','] operands ≠ [] := by
  match operands with
  | first :: second :: operands =>
      rw [Text.joinWith]
      · simp
      · exact List.cons_ne_nil _ _

theorem operandsOf_joinWith {texts : List String} (hlength : 2 ≤ texts.length)
    (h : ∀ text ∈ texts, Plain text) :
    operandsOf (Text.joinWith [','] (texts.map String.toList)) = texts := by
  have hne : texts ≠ [] := by
    rintro rfl
    exact absurd hlength (by decide)
  have hread := readable_of_plain hne h
  have hbody : (Text.joinWith [','] (texts.map String.toList)).isEmpty =
      false := by
    rw [List.isEmpty_eq_false_iff]
    exact joinWith_ne_nil (by rwa [List.length_map])
  rw [operandsOf, hbody, splitAt_joinWith hread.nonempty hread.comma,
    List.map_map]
  simp

/-! ## Calls of one name -/

theorem Readable.opening_body {operands : List (List Char)}
    (h : Readable operands) :
    '(' ∉ Text.joinWith [','] operands :=
  mem_joinWith (by decide) h.opening

theorem Readable.closing_body {operands : List (List Char)}
    (h : Readable operands) :
    ')' ∉ Text.joinWith [','] operands :=
  mem_joinWith (by decide) h.closing

theorem opener_prefix_callChars (name : String) (operands : List (List Char)) :
    opener name <+: callChars name operands :=
  List.prefix_append _ _

theorem scans_callChars {name : String} (hname : IsName name)
    {operands : List (List Char)} (h : Readable operands) :
    Scans (recogniseCall name) (callChars name operands)
      [(.closed (Text.joinWith [','] operands), callChars name operands)] := by
  intro previous next rest hprevious hrest
  have hbefore : previous.any Text.isIdentifierChar = false := by
    cases previous with
    | none => rfl
    | some c =>
        rcases hprevious c rfl with rfl | rfl
        · decide
        · decide
  have hopener : callChars name operands ++ rest =
      opener name ++ (Text.joinWith [','] operands ++ ')' :: rest) := by
    simp [callChars, opener]
  have hfound : recogniseCall name previous (callChars name operands ++ rest) =
      .found (.closed (Text.joinWith [','] operands))
        (callChars name operands).length := by
    rw [hopener]
    exact recogniseCall_of_closed hbefore h.closing_body
  have hne : callChars name operands ≠ [] := by simp [callChars]
  rw [Text.finds_found hne hfound,
    finds_of_closes (fun _ _ => recogniseCall_eq_pass)
      (apart_opener hname) hrest _ next]
  rfl

theorem callChars_inj {name : String} {operands operands' : List (List Char)}
    {rest : List Char} (h : Readable operands) (h' : Readable operands')
    (hstarts : callChars name operands <+: callChars name operands' ++ rest) :
    operands = operands' := by
  rw [callChars, callChars, List.append_assoc _ _ rest,
    List.prefix_append_right_inj, List.append_assoc, List.singleton_append]
    at hstarts
  have heq := eq_of_isPrefix h.closing_body h'.closing_body hstarts
  rw [← splitAt_joinWith h.nonempty h.comma, heq,
    splitAt_joinWith h'.nonempty h'.comma]

theorem silent_callChars {f : Function} {operands operands' : List (List Char)}
    (h : Readable operands) (h' : Readable operands')
    (hne : operands ≠ operands') {rest : List Char} (hrest : Closes rest) :
    Silent (callChars f.name operands) (callChars f.name operands') rest := by
  have hstart : ¬ callChars f.name operands <+:
      callChars f.name operands' ++ rest :=
    fun hstarts => hne (callChars_inj h h' hstarts)
  have hbody : Silent (opener f.name)
      (Text.joinWith [','] operands' ++ [')']) rest := by
    refine silent_opener_of_not_mem f.isName (fun hmem => ?_) hrest
    rcases List.mem_append.mp hmem with hmem | hmem
    · exact h'.opening_body hmem
    · exact absurd hmem (by decide)
  obtain ⟨c, cs, hcs⟩ := List.exists_cons_of_ne_nil f.isName.nonempty
  have hopen : '(' ∉ cs := fun hmem =>
    f.isName.not_mem (by decide) (hcs ▸ List.mem_cons_of_mem c hmem)
  have hsuffix : ¬ f.name.toList <:+ cs := by
    have htail := f.not_suffix_tail
    rwa [show f.name.toList.tail = cs by rw [hcs]; rfl] at htail
  -- behind its first character a call holds no place where the opener fits
  have hlater : Silent (callChars f.name operands)
      (cs ++ ['('] ++ (Text.joinWith [','] operands' ++ [')'])) rest := by
    refine Silent.of_isPrefix ?_ (opener_prefix_callChars f.name operands)
    exact Text.silent_append.mpr ⟨silent_opener f.isName hopen hsuffix, hbody⟩
  have hsplit : callChars f.name operands' =
      c :: (cs ++ ['('] ++ (Text.joinWith [','] operands' ++ [')'])) := by
    rw [callChars, hcs]
    rfl
  rw [hsplit] at hstart ⊢
  exact ⟨hstart, hlater⟩

end ReportDesk.Formula
