import Walkthrough.Proofs.Compile.Atomic
import Walkthrough.Proofs.Doctor
/-!
Compiling and examining agree: the references that a guide's steps are checked for before its tour
is written are those that the doctor looks for in the file.
-/

namespace Walkthrough.CommandLine

open Doctor (tourFiles examineTour examineTours missingAnchors pass fail)

variable {ι σ : Type} {s : Surroundings ι σ} {a : Arguments} {sc : Scene σ} {m : TourMap}

/-- A tour that a command has written is examined with the map that it was compiled with, and
nothing is wrong with it. -/
theorem examineTour_of_written {t : Tour} {st : Store}
    (hmap : TourMap.load sc.files (layout s a).mapJson = .ok (some m))
    (hc : compiled s a a.file sc.files = .ok t)
    (hw : Compile.write (toursDirectory s a) t sc.files = (.ok (), st)) :
    let file := Compile.destination (toursDirectory s a) t
    examineTour st (some m.anchorSet) file = .ok [pass s!"{file.name} valid against tour schema",
      pass s!"{file.name} anchors found in tour.map.json"] := by
  intro file
  obtain ⟨v, -, hc⟩ := bind_eq_ok.mp hc
  obtain ⟨m', hm', hc⟩ := bind_eq_ok.mp hc
  obtain ⟨text, -, hc⟩ := bind_eq_ok.mp hc
  rw [hmap] at hm'
  cases hm'
  obtain ⟨_, -, -, hissues, hformat⟩ := Compile.text_ok hc
  have hload : Tour.load st file = .ok t :=
    Compile.load_of_read (Compile.readsBack_of_text_ok hc) hformat (Filing.writeText_read hw)
  have hmissing : missingAnchors m.anchorSet t = [] := Doctor.missingAnchors_eq_nil hissues
  rw [Doctor.examineTour_of_load m.anchorSet hload, if_pos hmissing]

/-- A tour that was compiled and written with a map is found once among the tours of its directory,
as a valid tour whose anchors are all in the map; the other tours there are only asked to be
documents. Of any tour that can be loaded, what is found to be missing in a map are the anchors
that the tour's issues with the map name, each once and in order. -/
theorem compile_examined (s : Surroundings ι σ) (a : Arguments) (sc : Scene σ) (m : TourMap) :
    (TourMap.load sc.files (layout s a).mapJson = .ok (some m) →
      (outcome s .compile a sc).1.ended = .ok 0 →
      let st := (outcome s .compile a sc).2.files
      let tours := toursDirectory s a
      let name := a.file.stem ++ ".tour.json"
      (∀ file ∈ tourFiles st tours, file ≠ tours / name → ∃ v, readJson st file = .ok v) →
      ∃ before after found₁ found₂,
        tourFiles st tours = before ++ tours / name :: after ∧
        tours / name ∉ before ∧ tours / name ∉ after ∧
        before.mapM (examineTour st (some m.anchorSet)) = .ok found₁ ∧
        after.mapM (examineTour st (some m.anchorSet)) = .ok found₂ ∧
        examineTours st (some m.anchorSet) tours = .ok (found₁.flatten ++
          [pass s!"{name} valid against tour schema",
            pass s!"{name} anchors found in tour.map.json"] ++ found₂.flatten)) ∧
    ∀ (st : Store) (file : Path) (t : Tour) (v : Vocabulary), Tour.load st file = .ok t →
      ∃ missing : List String, missing.Pairwise (· < ·) ∧
        (∀ anchor, anchor ∈ missing ↔
          ∃ i ∈ t.issues (Known.of v (some m)), i.kind = .anchor ∧ i.value = anchor) ∧
        let named := ", ".intercalate missing
        examineTour st (some m.anchorSet) file = .ok [
          pass s!"{file.name} valid against tour schema",
          if missing = [] then pass s!"{file.name} anchors found in tour.map.json"
          else fail s!"{file.name} references anchors not in map: {named}"] := by
  constructor
  case left =>
    intro hmap hended st tours name hothers
    obtain ⟨t, hc, hw⟩ := exists_written hended
    obtain ⟨hid, hadmits⟩ := compiled_id hc
    have hname : Path.IsName name := by
      change Path.IsName (a.file.stem ++ ".tour.json")
      rw [← hid]
      exact isName_of_admits_tourId hadmits (by decide)
    have hfilename : (tours / name).name = name := by
      rw [Path.name, Path.getLast?_join_name tours name hname.single, Option.getD_some]
    have hdestination : Compile.destination tours t = tours / name := by
      rw [Compile.destination, hid]
      rfl
    have hself := examineTour_of_written hmap hc hw
    change Filing.writeText (Compile.destination tours t) t.fileText sc.files = (.ok (), st) at hw
    rw [hdestination] at hw
    dsimp only at hself
    rw [hdestination, hfilename] at hself
    exact Doctor.examineTours_of_writeText hname (Doctor.endsWith_tourSuffix _) hw hself hothers
  case right =>
    intro st file t v hload
    refine ⟨missingAnchors m.anchorSet t, Text.pairwise_sortedSet _, ?_, ?_⟩
    · intro anchor
      exact Doctor.mem_missingAnchors v
    · exact Doctor.examineTour_of_load m.anchorSet hload

/-- A tour is compiled next to one that has an anchor which is not in the map. -/
theorem compile_examined_logIn :
    let file (text : String) : Entry := .file (Text.Utf8.encode text.toList)
    let old : Tour := ⟨"old", none, [⟨.click "gone" "tour.gone.button" none, {}⟩]⟩
    let files : Store := ⟨[(["log-in.txt"], file "Click submit (tour.login.submit)"),
      (["tourkit"], .directory), (["tourkit", "config"], .directory),
      (["tourkit", "config", "routes.json"], file "\x7b\"routes\": []\x7d"),
      (["tourkit", "config", "events.json"], file "\x7b\"events\": []\x7d"),
      (["tourkit", "maps"], .directory),
      (["tourkit", "maps", "tour.map.json"], file ("\x7b\"routes\": \x7b\"home\": " ++
        "\x7b\"path\": \"/\", \"anchors\": [\"tour.login.submit\"]\x7d\x7d, \"events\": []\x7d")),
      (["tourkit", "tours"], .directory),
      (["tourkit", "tours", "old.tour.json"], file old.fileText)]⟩
    let m : TourMap := ⟨"", [("home", ⟨"/", ["tour.login.submit"], none⟩)], []⟩
    let t : Tour := ⟨"log-in", none,
      [⟨.narration "In this walkthrough we'll go through log in step by step.", {}⟩,
        ⟨.click "submit" "tour.login.submit" none, {}⟩]⟩
    let page : Page Int Unit := {
      answer := fun _ s => (.error .notStarted, s)
      clock := fun s => (.ok 0, s) }
    let s : Surroundings Int Unit := {
      directory := ".", process := [], page := page, timing := .exact
      session := ⟨fun _ => pure (), pure ()⟩, search := none, engine := none
      date := "2026-01-01", stamp := "20260101T000000Z" }
    let a : Arguments := { operand := some "log-in.txt" }
    let sc : Scene Unit := { page := (), files := files }
    let tours := toursDirectory s a
    TourMap.load files (layout s a).mapJson = .ok (some m) ∧ compiled s a a.file files = .ok t ∧
      (outcome s .compile a sc).1.ended = .ok 0 ∧
      ∃ st, (outcome s .compile a sc).2.files = st ∧
        Tour.load st (tours / "old.tour.json") = .ok old ∧
        (∃ found₁ found₂, examineTours st (some m.anchorSet) tours = .ok (found₁ ++
          [pass "log-in.tour.json valid against tour schema",
            pass "log-in.tour.json anchors found in tour.map.json"] ++ found₂)) ∧
        ∃ missing, "tour.gone.button" ∈ missing ∧
          let named := ", ".intercalate missing
          examineTour st (some m.anchorSet) (tours / "old.tour.json") = .ok [
            pass "old.tour.json valid against tour schema",
            fail s!"old.tour.json references anchors not in map: {named}"] := by
  intro file old files m t page s a sc tours
  have hmap : TourMap.load files (layout s a).mapJson = .ok (some m) :=
    ok_of_toOption (by decide +kernel)
  have hcompiled : compiled s a a.file files = .ok t := by
    have hv : Vocabulary.load files (layout s a).config = .ok ⟨[], [], "auth"⟩ :=
      ok_of_toOption (by decide +kernel)
    have hguide : readText files a.file = .ok "Click submit (tour.login.submit)" :=
      ok_of_toOption (by decide +kernel)
    rw [compiled, hv, ok_bind, hmap, ok_bind, hguide, ok_bind]
    exact ok_of_toOption (by decide +kernel)
  have hwrite : (Compile.write tours t files).1 = .ok () := ok_of_toOption (by decide +kernel)
  have hevaluated (st) (hst : st = (Compile.write tours t files).2) :
      st.read (tours / "old.tour.json") = .ok (Text.Utf8.encode old.fileText.toList) ∧
        st.namesIn tours = ["old.tour.json", "log-in.tour.json"] := by
    subst hst
    exact ⟨ok_of_toOption (by decide +kernel), by decide +kernel⟩
  obtain ⟨hended, hfiles⟩ : (outcome s .compile a sc).1.ended = _ ∧
      (outcome s .compile a sc).2.files = _ := outcome_compile_of_ok rfl hcompiled
  have hzero : (outcome s .compile a sc).1.ended = .ok 0 := by
    rw [hended]
    exact congrArg (Except.map fun _ => 0) hwrite
  obtain ⟨st, hst⟩ : ∃ st, (outcome s .compile a sc).2.files = st := ⟨_, rfl⟩
  obtain ⟨hread, hnames⟩ := hevaluated st (hst.symm.trans hfiles)
  have hnumbers : ∀ x ∈ old.steps, ∀ n ∈ x.numbers, Json.ReadsBack n := by
    simp [old, Step.numbers, ActionOf.numbers]
  have hold : Tour.load st (tours / "old.tour.json") = .ok old :=
    Compile.load_of_read hnumbers (by decide +kernel) hread
  have hothers : ∀ file ∈ tourFiles st tours, file ≠ tours / "log-in.tour.json" →
      ∃ document, readJson st file = .ok document := by
    intro file hfile hne
    obtain ⟨name, hname, -, rfl⟩ := Doctor.mem_tourFiles.mp hfile
    rw [hnames, List.mem_pair] at hname
    rcases hname with rfl | rfl
    · exact ⟨_, Compile.readJson_of_read hnumbers hread⟩
    · exact absurd rfl hne
  obtain ⟨hwritten, hloaded⟩ := compile_examined s a sc m
  refine ⟨hmap, hcompiled, hzero, st, hst, hold, ?_, ?_⟩
  · have hname : a.file.stem ++ ".tour.json" = "log-in.tour.json" := by decide
    have h := hwritten hmap hzero
    dsimp only at h
    rw [hst, hname] at h
    obtain ⟨_, _, found₁, found₂, -, -, -, -, -, hfound⟩ := h hothers
    exact ⟨_, _, hfound⟩
  · obtain ⟨missing, -, hmissing, hfound⟩ := hloaded st _ old ⟨[], [], "auth"⟩ hold
    have hgone : "tour.gone.button" ∈ missing := (hmissing _).mpr (by decide +kernel)
    refine ⟨missing, hgone, ?_⟩
    dsimp only at hfound
    rwa [if_neg (List.ne_nil_of_mem hgone)] at hfound

end Walkthrough.CommandLine
