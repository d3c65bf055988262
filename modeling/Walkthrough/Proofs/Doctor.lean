import Walkthrough.Doctor
import Walkthrough.Proofs.Location
import Walkthrough.Proofs.Reference
import Walkthrough.Proofs.Tour.Format
import Walkthrough.Proofs.TourMap
/-!
What the doctor finds of tours. Each tour file is looked at by itself, and the anchors that a tour
is found to miss are those that its issues with the map name.
-/

namespace Walkthrough

/-- A new text has one place among sorted ones. -/
theorem Text.exists_sorted_eq {ts : List String} {t : String} (h : t ∉ ts) :
    ∃ before after, sorted (ts ++ [t]) = before ++ t :: after ∧ t ∉ before ∧ t ∉ after := by
  have hmem : t ∈ sorted (ts ++ [t]) := mem_sorted.mpr (by simp)
  obtain ⟨before, after, hsorted⟩ := List.append_of_mem hmem
  have hperm : (t :: (before ++ after)).Perm (t :: ts) := by
    apply List.perm_middle.symm.trans
    rw [← hsorted]
    exact (perm_sorted _).trans (List.perm_append_singleton t ts)
  have hnot : t ∉ before ++ after := fun hm => h ((List.Perm.cons_inv hperm).mem_iff.mp hm)
  rw [List.mem_append, not_or] at hnot
  exact ⟨before, after, hsorted, hnot⟩

namespace Doctor

/-- The anchors that a tour misses are those that it has issues with. -/
theorem mem_missingAnchors {t : Tour} {m : TourMap} {a : String} (v : Vocabulary) :
    a ∈ missingAnchors m.anchorSet t ↔
      ∃ i ∈ t.issues (Known.of v (some m)), i.kind = .anchor ∧ i.value = a := by
  rw [Tour.exists_issue_iff, Known.isUnknown_anchor, missingAnchors, Text.mem_sortedSet,
    List.mem_filter, Tour.mem_anchorReferences, and_comm]

/-- A tour that has no issues misses no anchors. -/
theorem missingAnchors_eq_nil {t : Tour} {v : Vocabulary} {m : TourMap}
    (h : t.issues (Known.of v (some m)) = []) : missingAnchors m.anchorSet t = [] := by
  rw [List.eq_nil_iff_forall_not_mem]
  intro a ha
  obtain ⟨i, hi, -⟩ := (mem_missingAnchors v).mp ha
  rw [h] at hi
  cases hi

variable {st : Store} {file directory : Path}

theorem examineTour_of_load {t : Tour} (known : List String) (h : Tour.load st file = .ok t) :
    let named := ", ".intercalate (missingAnchors known t)
    examineTour st (some known) file = .ok [pass s!"{file.name} valid against tour schema",
      if missingAnchors known t = [] then pass s!"{file.name} anchors found in tour.map.json"
      else fail s!"{file.name} references anchors not in map: {named}"] := by
  unfold examineTour
  rw [h]
  dsimp only
  cases missingAnchors known t with
  | nil => rfl
  | cons a as => rfl

/-- There are findings for every file that holds a document. -/
theorem exists_examineTour {document : Json} (known : Option (List String))
    (h : readJson st file = .ok document) : ∃ found, examineTour st known file = .ok found := by
  obtain ⟨c, -, hc⟩ | ⟨t, -, ht⟩ := Tour.ofJson_cases document
  · have hload : Tour.load st file = .error (.format c) := by rw [Tour.load, h, ok_bind, hc]
    refine ⟨[fail s!"{file.name} invalid: {c.message}"], ?_⟩
    unfold examineTour
    rw [hload]
  · have hload : Tour.load st file = .ok t := by rw [Tour.load, h, ok_bind, ht]
    cases known with
    | none =>
      refine ⟨[pass s!"{file.name} valid against tour schema"], ?_⟩
      unfold examineTour
      rw [hload]
    | some known => exact ⟨_, examineTour_of_load known hload⟩

theorem endsWith_tourSuffix (s : String) : (s ++ tourSuffix).endsWith tourSuffix = true := by
  rw [← String.endsWith_toSlice, String.Slice.endsWith_string_iff, String.copy_toSlice,
    String.toList_append]
  exact List.suffix_append _ _

theorem mem_tourFiles :
    file ∈ tourFiles st directory ↔ ∃ name ∈ st.namesIn directory,
      name.endsWith tourSuffix = true ∧ directory.join ⟨"", [name]⟩ = file := by
  unfold tourFiles
  rw [List.mem_map]
  simp only [Text.mem_sorted, List.mem_filter, and_assoc]

/-- A tour file that is in the list of a directory once is a tour file of it once. -/
theorem tourFiles_of_namesIn {others : List String} {name : String} (hn : Path.IsName name)
    (hsuffix : name.endsWith tourSuffix = true) (hnames : st.namesIn directory = others ++ [name])
    (hnew : name ∉ others) :
    ∃ before after, tourFiles st directory = before ++ directory / name :: after ∧
      directory / name ∉ before ∧ directory / name ∉ after := by
  have hnew' : name ∉ others.filter (·.endsWith tourSuffix) :=
    fun h => hnew (List.mem_of_mem_filter h)
  obtain ⟨before, after, hsorted, hbefore, hafter⟩ := Text.exists_sorted_eq hnew'
  have hpath (other : String) :
      directory.join ⟨"", [other]⟩ = ⟨directory.root, directory.parts ++ [other]⟩ := rfl
  have hfile : directory / name = directory.join ⟨"", [name]⟩ :=
    Path.join_name directory name hn.single
  have hinjective : Function.Injective fun other => directory.join ⟨"", [other]⟩ := by
    intro x y hxy
    simpa [hpath] using hxy
  refine ⟨before.map fun other => directory.join ⟨"", [other]⟩,
    after.map fun other => directory.join ⟨"", [other]⟩, ?_, ?_, ?_⟩
  · have hself : [name].filter (·.endsWith tourSuffix) = [name] := by simp [hsuffix]
    unfold tourFiles
    rw [hnames, List.filter_append, hself, hsorted, hfile, List.map_append, List.map_cons]
  · rwa [hfile, List.mem_map_of_injective hinjective]
  · rwa [hfile, List.mem_map_of_injective hinjective]

/-- The findings of some files are there if each of the files holds a document. -/
theorem exists_examined {files : List Path} (known : Option (List String))
    (h : ∀ file ∈ files, ∃ document, readJson st file = .ok document) :
    ∃ found, files.mapM (examineTour st known) = .ok found := by
  have hall : ∀ file ∈ files, ∃ found, examineTour st known file = .ok found ∧ True := by
    intro file hfile
    obtain ⟨document, hdocument⟩ := h file hfile
    obtain ⟨found, hfound⟩ := exists_examineTour known hdocument
    exact ⟨found, hfound, trivial⟩
  obtain ⟨found, hfound, -⟩ := exists_mapM hall
  exact ⟨found, hfound⟩

/-- The findings of a directory's tours are those of one file among those of the others. -/
theorem examineTours_of_tourFiles {known : Option (List String)} {before after : List Path}
    {found : List Finding} {found₁ found₂ : List (List Finding)}
    (hfiles : tourFiles st directory = before ++ file :: after)
    (hbefore : before.mapM (examineTour st known) = .ok found₁)
    (hfile : examineTour st known file = .ok found)
    (hafter : after.mapM (examineTour st known) = .ok found₂) :
    examineTours st known directory = .ok (found₁.flatten ++ found ++ found₂.flatten) := by
  have hall : (before ++ file :: after).mapM (examineTour st known) =
      .ok (found₁ ++ found :: found₂) := by
    rw [List.mapM_append, hbefore, ok_bind, List.mapM_cons, hfile, ok_bind, hafter]
    rfl
  unfold examineTours
  rw [hfiles]
  split
  · next hnone => simp at hnone
  · rw [hall, ok_bind]
    simp [pure, Except.pure]

/-- A tour file that was written is examined once, among others that hold documents. -/
theorem examineTours_of_writeText {st' : Store} {name text : String} {found : List Finding}
    {known : Option (List String)} (hn : Path.IsName name)
    (hsuffix : name.endsWith tourSuffix = true)
    (hw : Filing.writeText (directory / name) text st = (.ok (), st'))
    (hfound : examineTour st' known (directory / name) = .ok found)
    (hothers : ∀ file ∈ tourFiles st' directory, file ≠ directory / name →
      ∃ document, readJson st' file = .ok document) :
    ∃ before after found₁ found₂,
      tourFiles st' directory = before ++ directory / name :: after ∧
      directory / name ∉ before ∧ directory / name ∉ after ∧
      before.mapM (examineTour st' known) = .ok found₁ ∧
      after.mapM (examineTour st' known) = .ok found₂ ∧
      examineTours st' known directory = .ok (found₁.flatten ++ found ++ found₂.flatten) := by
  obtain ⟨others, hnames, hnew⟩ := Filing.writeText_names hn hw
  obtain ⟨before, after, hfiles, hbefore, hafter⟩ := tourFiles_of_namesIn hn hsuffix hnames hnew
  have hdocuments {files : List Path} (hsome : ∀ file ∈ files, file ∈ tourFiles st' directory)
      (hnot : directory / name ∉ files) :
      ∀ file ∈ files, ∃ document, readJson st' file = .ok document := by
    intro file hfile
    have hne : file ≠ directory / name := by
      rintro rfl
      exact hnot hfile
    exact hothers file (hsome file hfile) hne
  have hbefore' : ∀ file ∈ before, file ∈ tourFiles st' directory := by
    intro file h
    rw [hfiles]
    exact List.mem_append_left _ h
  have hafter' : ∀ file ∈ after, file ∈ tourFiles st' directory := by
    intro file h
    rw [hfiles]
    exact List.mem_append_right _ (List.mem_cons_of_mem _ h)
  obtain ⟨found₁, hfound₁⟩ := exists_examined known (hdocuments hbefore' hbefore)
  obtain ⟨found₂, hfound₂⟩ := exists_examined known (hdocuments hafter' hafter)
  exact ⟨before, after, found₁, found₂, hfiles, hbefore, hafter, hfound₁, hfound₂,
    examineTours_of_tourFiles hfiles hfound₁ hfound hfound₂⟩

end Doctor

end Walkthrough
