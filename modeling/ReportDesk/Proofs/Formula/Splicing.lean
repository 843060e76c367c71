import ReportDesk.Proofs.Formula.Layout
import ReportDesk.Proofs.Text.Silence

/-!
# When a stage replaces each fragment at its own place

A stage replaces texts wherever they stand.  That comes to writing each
fragment's value at its own place as long as the text of a fragment, at its
turn, starts nowhere but at the fragments that have it and are not replaced yet.
-/

namespace ReportDesk.Formula

open Text (Tiles startsIn)

/-! ## Replacing one text -/

namespace Fragment

variable {render : Fragment → String} {offset : Nat}
  {cs pattern value : List Char} {fs : List Fragment} {hit : Fragment → Bool}

private theorem countP_le_startsIn (htiles : Tiles offset cs (fs.map place))
    (hne : pattern ≠ [])
    (hhit : ∀ f ∈ fs, hit f = true → (render f).toList = pattern) :
    fs.countP hit ≤ startsIn pattern (spliceFrom render offset cs fs) [] := by
  induction fs generalizing offset cs with
  | nil => simp
  | cons f fs ih =>
      obtain ⟨gap, rest, rfl, hstart, -, hrest⟩ := exists_of_tiles htiles
      rw [List.forall_mem_cons] at hhit
      have htail := ih hrest hhit.2
      rw [spliceFrom_cons hstart, Text.startsIn_append, Text.startsIn_append]
      cases hf : hit f with
      | false =>
          rw [List.countP_cons_of_neg (by simp [hf])]
          omega
      | true =>
          have hself := Text.startsIn_self_pos hne
            (spliceFrom render f.stop rest fs ++ [])
          rw [List.countP_cons_of_pos hf, hhit.1 hf]
          omega

/--
If the text starts nowhere else, replacing it everywhere is replacing it there.
-/
theorem replaceFrom_spliceFrom (htiles : Tiles offset cs (fs.map place))
    (hne : pattern ≠ [])
    (hhit : ∀ f ∈ fs, hit f = true → (render f).toList = pattern)
    (hcount : startsIn pattern (spliceFrom render offset cs fs) [] =
      fs.countP hit) :
    Text.replaceFrom pattern value 0 (spliceFrom render offset cs fs) =
      spliceFrom (fun f => if hit f then String.ofList value else render f)
        offset cs fs := by
  induction fs generalizing offset cs with
  | nil =>
      have hsilent : Text.replaceFrom pattern value 0 (cs ++ []) = _ :=
        Text.replaceFrom_of_silent (Text.silent_iff_startsIn.mpr hcount)
      simpa [spliceFrom, Text.replaceFrom] using hsilent
  | cons f fs ih =>
      obtain ⟨gap, rest, rfl, hstart, -, hrest⟩ := exists_of_tiles htiles
      rw [List.forall_mem_cons] at hhit
      have hle := countP_le_startsIn hrest hne hhit.2
      rw [spliceFrom_cons hstart, Text.startsIn_append, Text.startsIn_append,
        List.append_nil, List.append_nil] at hcount
      rw [spliceFrom_cons hstart, spliceFrom_cons hstart]
      cases hf : hit f with
      | false =>
          rw [List.countP_cons_of_neg (by simp [hf])] at hcount
          have hgap : startsIn pattern gap
              ((render f).toList ++ spliceFrom render f.stop rest fs) =
                0 := by omega
          have hself : startsIn pattern (render f).toList
              (spliceFrom render f.stop rest fs) = 0 := by omega
          rw [Text.replaceFrom_of_silent (Text.silent_iff_startsIn.mpr hgap),
            Text.replaceFrom_of_silent (Text.silent_iff_startsIn.mpr hself),
            ih hrest hhit.2 (by omega)]
          simp
      | true =>
          have hself := Text.startsIn_self_pos hne
            (spliceFrom render f.stop rest fs)
          rw [List.countP_cons_of_pos hf, hhit.1 hf] at hcount
          have hgap : startsIn pattern gap
              (pattern ++ spliceFrom render f.stop rest fs) = 0 := by omega
          rw [hhit.1 hf,
            Text.replaceFrom_of_silent (Text.silent_iff_startsIn.mpr hgap),
            Text.replaceFrom_append_self hne, ih hrest hhit.2 (by omega)]
          simp

end Fragment

/-! ## Replacing the fragments in turn -/

def replaceInTurn (v : Fragment → String) (found : List Fragment)
    (text : String) : String :=
  String.ofList
    (found.foldl (fun cs f => Text.replaceAll f.text.toList (v f).toList cs)
      text.toList)

def partly (v : Fragment → String) (done found : List Fragment)
    (text : String) : String :=
  Fragment.splice text
    (fun f => if f.text ∈ done.map Fragment.text then v f else f.text) found

/--
At its turn the text of each fragment starts nowhere but at the fragments that
have this text and are not replaced yet.
-/
def Undisturbed (v : Fragment → String) (found : List Fragment)
    (text : String) : Prop :=
  ∀ i : Fin found.length,
    startsIn found[i].text.toList
    (partly v (found.take i) found text).toList [] =
      found.countP fun f =>
        f.text == found[i].text &&
          !((found.take i).map Fragment.text).contains f.text

instance decidableUndisturbed (v : Fragment → String) (found : List Fragment)
    (text : String) : Decidable (Undisturbed v found text) :=
  inferInstanceAs (Decidable (∀ _ : Fin _, _))

section Replacing

variable {v : Fragment → String} {found : List Fragment} {text : String}

private theorem partly_nil
    (htiles : Tiles 0 text.toList (found.map Fragment.place)) :
    partly v [] found text = text := by
  have hown := Fragment.spliceFrom_text htiles
  simp only [partly, Fragment.splice, List.map_nil, List.not_mem_nil, if_false]
  rw [hown, String.ofList_toList]

private theorem partly_self :
    partly v found found text = Fragment.splice text v found := by
  rw [partly, Fragment.splice, Fragment.splice, Fragment.spliceFrom_congr]
  intro f hf
  simp [List.mem_map_of_mem hf]

private theorem replaceAll_partly
    (htiles : Tiles 0 text.toList (found.map Fragment.place))
    (hsame : ∀ f ∈ found, ∀ g ∈ found, f.text = g.text → v f = v g)
    (hquiet : Undisturbed v found text) {done later : List Fragment}
    {f : Fragment} (hfound : found = done ++ f :: later) :
    Text.replaceAll f.text.toList (v f).toList
      (partly v done found text).toList =
      (partly v (done ++ [f]) found text).toList := by
  have hlt : done.length < found.length := by
    rw [hfound, List.length_append, List.length_cons]
    omega
  have hturn := hquiet ⟨done.length, hlt⟩
  have hget : found[done.length] = f := by simp [hfound]
  have htake : found.take done.length = done := by simp [hfound]
  simp only [Fin.getElem_fin, hget, htake] at hturn
  have hmem : f ∈ found := by simp [hfound]
  have hne : f.text.toList ≠ [] := Fragment.text_ne_nil htiles hmem
  rw [Text.replaceAll_eq]
  simp only [partly, Fragment.splice, String.toList_ofList] at hturn ⊢
  rw [Fragment.replaceFrom_spliceFrom htiles hne _ hturn]
  · apply Fragment.spliceFrom_congr
    intro g hg
    by_cases hdone : g.text ∈ done.map Fragment.text
    · simp [hdone]
    · have hcontains : (done.map Fragment.text).contains g.text = false := by
        simpa using hdone
      by_cases hturns : g.text = f.text
      · have hhit :
            (g.text == f.text && !(done.map Fragment.text).contains g.text) =
              true := by
          rw [hcontains]
          simpa using hturns
        have hlater : g.text ∈ (done ++ [f]).map Fragment.text := by
          simp [hturns]
        rw [if_pos hhit, if_pos hlater, String.ofList_toList,
          hsame f hmem g hg hturns.symm]
      · simp [hdone, hturns]
  · intro g _ hturns
    simp only [Bool.and_eq_true, beq_iff_eq, Bool.not_eq_true',
      List.contains_eq_mem, decide_eq_false_iff_not] at hturns
    rw [if_neg hturns.2, hturns.1]

theorem replaceInTurn_eq_splice
    (htiles : Tiles 0 text.toList (found.map Fragment.place))
    (hsame : ∀ f ∈ found, ∀ g ∈ found, f.text = g.text → v f = v g)
    (hquiet : Undisturbed v found text) :
    replaceInTurn v found text = Fragment.splice text v found := by
  -- the induction is on the fragments still to come; `done` are those before
  -- them
  have hfold : ∀ later done, found = done ++ later →
      later.foldl (fun cs f => Text.replaceAll f.text.toList (v f).toList cs)
        (partly v done found text).toList =
          (Fragment.splice text v found).toList := by
    intro later
    induction later with
    | nil =>
        intro done hfound
        rw [List.append_nil] at hfound
        rw [← hfound, List.foldl_nil, partly_self]
    | cons f later ih =>
        intro done hfound
        rw [List.foldl_cons, replaceAll_partly htiles hsame hquiet hfound]
        exact ih (done ++ [f]) (by rw [hfound]; simp)
  have hall := hfold found [] rfl
  rw [partly_nil htiles] at hall
  rw [replaceInTurn, hall, String.ofList_toList]

end Replacing

/-! ## The stages -/

private theorem fragmentValue_eq {env : Environment} {row : Row}
    {f g : Fragment} (hreference : f.reference = g.reference)
    (htext : f.text = g.text) :
    fragmentValue env row f = fragmentValue env row g := by
  unfold fragmentValue
  rw [hreference, htext]

private theorem result_substitute {value : Fragment → Logged Error String}
    {v : Fragment → String} {found : List Fragment}
    (h : ∀ f ∈ found, (value f).result = .ok (v f)) (cs : List Char) :
    (substitute value found cs).result =
      .ok
        (found.foldl (fun cs f =>
          Text.replaceAll f.text.toList (v f).toList cs) cs) := by
  induction found generalizing cs with
  | nil => rfl
  | cons f found ih =>
      rw [List.forall_mem_cons] at h
      rw [substitute, Logged.result_bind, h.1, List.foldl_cons]
      exact ih h.2 _

private theorem Stage.result_run_of_values {env : Environment} {row : Row}
    {stage : Stage} {text : String} {found : List Fragment}
    {v : Fragment → String} (hfound : stage.fragments env text = .ok found)
    (hvalues : ∀ f ∈ found, (fragmentValue env row f).result = .ok (v f))
    (traced : Bool) :
    (stage.run env row traced text).result =
      .ok (replaceInTurn v found text) := by
  rw [Stage.result_run, hfound]
  simp only [Except.bind]
  rw [result_substitute hvalues]
  rfl

/--
A stage whose fragments all have values replaces the text of each in turn.
This writes each value at its fragment's place, and changes nothing else, when
the fragments are undisturbed.
-/
theorem Stage.result_run_eq_splice {env : Environment} {row : Row}
    {traced : Bool} {stage : Stage} {text : String} {found : List Fragment}
    {v : Fragment → String} (hstage : stage ≠ .comparisons)
    (hfound : stage.fragments env text = .ok found)
    (hvalues : ∀ f ∈ found, (fragmentValue env row f).result = .ok (v f)) :
    (stage.run env row traced text).result = .ok (replaceInTurn v found text) ∧
      (Undisturbed v found text →
        (stage.run env row traced text).result =
          .ok (Fragment.splice text v found)) := by
  have hrun := Stage.result_run_of_values hfound hvalues traced
  refine ⟨hrun, fun hquiet => ?_⟩
  rw [hrun,
    replaceInTurn_eq_splice (Stage.tiles_fragments hstage hfound) _ hquiet]
  intro f hf g hg htext
  obtain ⟨read, hread⟩ := Stage.exists_reading hstage hfound
  have hreference : f.reference = g.reference := by
    rw [hread f hf, hread g hg, htext]
  have hsame := hvalues f hf
  rw [fragmentValue_eq hreference htext, hvalues g hg, Except.ok.injEq] at hsame
  exact hsame.symm

/-! ## A name beside a reference, and a name inside a longer one -/

def marchEnvironment : Environment :=
  ⟨.standard, ⟨2024, 3, 9⟩, .empty, ⟨0⟩⟩

def letterRow : Row :=
  (Row.new ⟨"T", [Column.named "a"], 0, by decide⟩).putCode "a" "x"

theorem result_run_eq_splice_columns :
    (Stage.columns.run marchEnvironment letterRow false
        "%a.code, %TODAY, %a.code").result =
      .ok "x, %TODAY, x" := by
  have hlist : findColumns "%a.code, %TODAY, %a.code" =
      [⟨.column "a" .code, "%a.code", 0⟩,
        ⟨.column "a" .code, "%a.code", 17⟩] := by
    decide +kernel
  have hvalues : ∀ f ∈ findColumns "%a.code, %TODAY, %a.code",
      (fragmentValue marchEnvironment letterRow f).result = .ok "x" := by
    rw [hlist]
    simp only [List.forall_mem_cons]
    exact ⟨rfl, rfl, fun _ h => absurd h List.not_mem_nil⟩
  have hquiet : Undisturbed (fun _ => "x")
      (findColumns "%a.code, %TODAY, %a.code")
      "%a.code, %TODAY, %a.code" := by decide +kernel
  have hsplice : Fragment.splice "%a.code, %TODAY, %a.code" (fun _ => "x")
      (findColumns "%a.code, %TODAY, %a.code") =
        "x, %TODAY, x" := by decide +kernel
  rw [← hsplice]
  exact (Stage.result_run_eq_splice (by decide) rfl hvalues).2 hquiet

/--
The name of a constant is also replaced where another name starts with it.
-/
theorem replaced_inside_longer_name :
    (∀ f ∈ findKeywords marchEnvironment.keywords "%TODAY %TODAYX",
        (fragmentValue marchEnvironment letterRow f).result =
          .ok "2024-03-09") ∧
      (Stage.keywords.run marchEnvironment letterRow false
          "%TODAY %TODAYX").result =
        .ok "2024-03-09 2024-03-09X" ∧
      Fragment.splice "%TODAY %TODAYX" (fun _ => "2024-03-09")
        (findKeywords marchEnvironment.keywords "%TODAY %TODAYX") =
          "2024-03-09 %TODAYX" := by
  have hlist : findKeywords marchEnvironment.keywords "%TODAY %TODAYX" =
      [⟨.keyword "TODAY", "%TODAY", 0⟩] := by decide +kernel
  have htoday : (marchEnvironment.keywords.get? "TODAY").getD "" =
      "2024-03-09" := by
    decide +kernel
  have hvalues : ∀ f ∈ findKeywords marchEnvironment.keywords "%TODAY %TODAYX",
      (fragmentValue marchEnvironment letterRow f).result =
        .ok "2024-03-09" := by
    rw [hlist, List.forall_mem_singleton, ← htoday]
    rfl
  refine ⟨hvalues, ?_, by decide +kernel⟩
  rw [Stage.result_run_of_values rfl hvalues, Except.ok.injEq]
  decide +kernel

end ReportDesk.Formula
