import Walkthrough.Proofs.Doctor
import Walkthrough.Proofs.Doctor.Legible
import Walkthrough.Proofs.Scene
/-!
What the doctor reports of a project. Each file is read once and judged by itself. Whether it can be
judged does not depend on its being a document: only a file that is no text, or a text with a whole
number that is too long to be read or with brackets that are nested too deep, keeps the doctor from
reporting.
-/

namespace Walkthrough

namespace Doctor

variable {st st' : Store} {file : Path} {format : Schema}

/-- A finding says whether something is well. -/
def Finding.Judges (x : Finding) (well : Prop) : Prop :=
  (x.health = .pass ∧ well) ∨ (x.health = .fail ∧ ¬ well)

theorem judges_pass (m : String) {well : Prop} (h : well) : (pass m).Judges well := .inl ⟨rfl, h⟩

theorem judges_fail (m : String) {well : Prop} (h : ¬ well) : (fail m).Judges well := .inr ⟨rfl, h⟩

/-- A finding about a document that there is. -/
theorem judges_complaint {v : Json} (h : readJson st file = .ok v) (said : Complaint → String)
    (valid : String) : Finding.Judges (match format.complaint? v with
      | some c => fail (said c)
      | none => pass valid) (Holds st file format) := by
  rcases hc : format.complaint? v with _ | c
  · exact judges_pass _ ((holds_iff h).mpr ((Schema.complaint?_eq_none_iff format v).mp hc))
  · refine judges_fail _ fun hh => ?_
    rw [holds_iff h, ← Schema.complaint?_eq_none_iff, hc] at hh
    cases hh

/-- A file that is there is judged by what is read from it. -/
theorem examineFile_of_has (h : st.has file = .ok true) :
    examineFile st file format = match readJson st file with
      | .ok v => .ok (match format.complaint? v with
        | some c => fail s!"{file.name} exists but shape is invalid: {c.message}"
        | none => pass s!"{file.name} exists and valid")
      | .error (.json (.malformed c l k i)) =>
        .ok (fail s!"{file.name} parse failed: {(Json.ReadError.malformed c l k i).message}")
      | .error f => .error f := by
  unfold examineFile readJson
  rw [h]
  rcases ht : readText st file with f | text
  · rcases readText_fault ht with ⟨g, -, rfl⟩ | ⟨g, rfl⟩ <;> rfl
  · simp only [Except.mapError, ok_bind, Bool.not_true, Bool.false_eq_true, if_false]
    rcases Json.read text with (⟨c, l, k, i⟩ | r) | v
    · rfl
    · rfl
    · dsimp only
      cases format.complaint? v <;> rfl

/-- There is one finding for a configuration file that can be judged, and else a fault. -/
theorem examineFile_cases (hfollowed : Followed st file) (format : Schema) :
    (Judgeable st file ∧ ∃ x, examineFile st file format = .ok x ∧
      x.Judges (Holds st file format)) ∨
    (¬ Judgeable st file ∧ ∃ f, examineFile st file format = .error f) := by
  rcases hh : st.has file with f | there
  · exact .inr ⟨not_judgeable_of_fault hh, .file f, by rw [examineFile, hh]; rfl⟩
  cases there with
  | false =>
    refine .inl ⟨.inl hh, fail s!"{file.name} missing", ?_, judges_fail _ (not_holds_of_missing hh)⟩
    rw [examineFile, hh]
    rfl
  | true =>
    rw [examineFile_of_has hh]
    obtain ⟨hl, v, hv⟩ | ⟨hl, c, l, k, i, hj⟩ | ⟨hl, f, hf, hkind⟩ := readJson_cases hfollowed
    · rw [hv]
      exact .inl ⟨.inr hl, _, rfl, judges_complaint hv _ _⟩
    · rw [hj]
      exact .inl ⟨.inr hl, _, rfl, judges_fail _ (not_holds hj)⟩
    · rw [hf]
      refine .inr ⟨not_judgeable hh hl, f, ?_⟩
      obtain ⟨g, rfl⟩ | ⟨g, rfl⟩ | ⟨r, rfl⟩ := hkind <;> rfl

/-- A map that is there is read as a document. -/
theorem load_of_has (h : st.has file = .ok true) :
    TourMap.load st file = match readJson st file with
      | .ok v => (match TourMap.format.complaint? v with
        | some c => .error (.config (.badMapShape file c))
        | none => .ok (TourMap.ofJson? v))
      | .error (.json (.malformed c l k i)) => .error (.config (.badMap file (.malformed c l k i)))
      | .error f => .error f := by
  unfold TourMap.load readJson
  rw [h]
  rcases ht : readText st file with f | text
  · rcases readText_fault ht with ⟨g, -, rfl⟩ | ⟨g, rfl⟩ <;> rfl
  · simp only [Except.mapError, ok_bind, Bool.not_true, Bool.false_eq_true, if_false]
    rcases Json.read text with (⟨c, l, k, i⟩ | r) | v
    · rfl
    · rfl
    · cases hc : TourMap.format.complaint? v <;> simp only [hc]

/-- There is no map, or one that a document is read as; or the file holds none, which is a fault of
the configuration; or it cannot be told what it holds, which is a fault of another kind. -/
theorem load_cases (hfollowed : Followed st file) :
    (st.has file = .ok false ∧ TourMap.load st file = .ok none) ∨
    (st.has file = .ok true ∧ Legible st file ∧ ∃ v m, readJson st file = .ok v ∧
      TourMap.format.accepts v = true ∧ TourMap.ofJson? v = some m ∧
      TourMap.load st file = .ok (some m)) ∨
    (st.has file = .ok true ∧ Legible st file ∧ ¬Holds st file TourMap.format ∧
      ∃ c, TourMap.load st file = .error (.config c)) ∨
    (¬Judgeable st file ∧ ∃ f, TourMap.load st file = .error f ∧ ∀ c, f ≠ .config c) := by
  rcases hh : st.has file with f | there
  · refine .inr (.inr (.inr ⟨not_judgeable_of_fault hh, .file f, ?_, by simp⟩))
    rw [TourMap.load, hh]
    rfl
  cases there with
  | false =>
    refine .inl ⟨rfl, ?_⟩
    rw [TourMap.load, hh]
    rfl
  | true =>
    have hload := load_of_has hh
    obtain ⟨hl, v, hv⟩ | ⟨hl, c, l, k, i, hj⟩ | ⟨hl, f, hf, hkind⟩ := readJson_cases hfollowed
    · rw [hv] at hload
      rcases hc : TourMap.format.complaint? v with _ | c
      · have ha := (Schema.complaint?_eq_none_iff TourMap.format v).mp hc
        obtain ⟨m, hm⟩ := TourMap.exists_of_accepts ha
        simp only [hc, hm] at hload
        exact .inr (.inl ⟨rfl, hl, v, m, hv, ha, hm, hload⟩)
      · simp only [hc] at hload
        refine .inr (.inr (.inl ⟨rfl, hl, fun h => ?_, _, hload⟩))
        rw [holds_iff hv, ← Schema.complaint?_eq_none_iff, hc] at h
        cases h
    · rw [hj] at hload
      exact .inr (.inr (.inl ⟨rfl, hl, not_holds hj, _, hload⟩))
    · rw [hf] at hload
      refine .inr (.inr (.inr ⟨not_judgeable hh hl, f, ?_⟩))
      obtain ⟨g, rfl⟩ | ⟨g, rfl⟩ | ⟨r, rfl⟩ := hkind <;> exact ⟨hload, by simp⟩

/-- There is one finding for a map that can be judged, and else a fault. -/
theorem examineMap_cases (hfollowed : Followed st file) :
    (Judgeable st file ∧ ∃ x known, examineMap st file = .ok (x, known) ∧
      ((st.has file = .ok false ∧ x.health = .warn) ∨
        (st.has file = .ok true ∧ x.Judges (Holds st file TourMap.format)))) ∨
    (¬ Judgeable st file ∧ ∃ f, examineMap st file = .error f) := by
  obtain ⟨hh, hload⟩ | ⟨hh, hl, v, m, hv, ha, -, hload⟩ | ⟨hh, hl, hno, c, hload⟩ |
    ⟨hj, f, hload, hf⟩ := load_cases hfollowed
  · refine .inl ⟨.inl hh, warn "tour.map.json missing; run generate-tour-map", none, ?_,
      .inl ⟨hh, rfl⟩⟩
    rw [examineMap, hload]
  · refine .inl ⟨.inr hl, pass "tour.map.json exists", some m.anchorSet, ?_,
      .inr ⟨hh, judges_pass _ ⟨v, hv, ha⟩⟩⟩
    rw [examineMap, hload]
  · refine .inl ⟨.inr hl, fail c.message, none, ?_, .inr ⟨hh, judges_fail _ hno⟩⟩
    rw [examineMap, hload]
  · refine .inr ⟨hj, f, ?_⟩
    rw [examineMap, hload]
    cases f with
    | config c => exact absurd rfl (hf c)
    | _ => rfl

/-- What is found of a tour file that can be judged: that it is a tour, and perhaps something about
its anchors, or one failure. There is a fault for every other. -/
theorem examineTour_cases (known : Option (List String)) (hfollowed : Followed st file) :
    (Legible st file ∧ ∃ found, examineTour st known file = .ok found ∧
      ((Holds st file Tour.format ∧
          found.head? = some (pass s!"{file.name} valid against tour schema")) ∨
        (¬ Holds st file Tour.format ∧ ∃ m, found = [fail m]))) ∨
    (¬ Legible st file ∧ ∃ f, examineTour st known file = .error f) := by
  have hload : Tour.load st file = readJson st file >>= Tour.ofJson := rfl
  obtain ⟨hl, v, hv⟩ | ⟨hl, c, l, k, i, hj⟩ | ⟨hl, f, hf, hkind⟩ := readJson_cases hfollowed
  · refine .inl ⟨hl, ?_⟩
    rw [hv, ok_bind] at hload
    obtain ⟨c, hc, ht⟩ | ⟨t, ha, ht⟩ := Tour.ofJson_cases v
    · rw [ht] at hload
      rw [examineTour, hload]
      refine ⟨_, rfl, .inr ⟨fun h => ?_, _, rfl⟩⟩
      rw [holds_iff hv, ← Schema.complaint?_eq_none_iff, hc] at h
      cases h
    · rw [ht] at hload
      have hh := (holds_iff hv).mpr ha
      cases known with
      | none =>
        rw [examineTour, hload]
        exact ⟨_, rfl, .inl ⟨hh, rfl⟩⟩
      | some known => exact ⟨_, examineTour_of_load known hload, .inl ⟨hh, rfl⟩⟩
  · rw [hj] at hload
    rw [examineTour, hload]
    exact .inl ⟨hl, _, rfl, .inr ⟨not_holds hj, _, rfl⟩⟩
  · rw [hf] at hload
    refine .inr ⟨hl, f, ?_⟩
    obtain ⟨g, rfl⟩ | ⟨g, rfl⟩ | ⟨r, rfl⟩ := hkind <;> rw [examineTour, hload] <;> rfl

/-- What is found of one of a project's tours. -/
def tourFindings (l : Layout) (st : Store) (file : Path) : Except Fault (List Finding) := do
  let (_, known) ← examineMap st l.mapJson
  examineTour st known file

/-- What is found of a tour is decided by what its file and that of the map hold. -/
theorem tourFindings_congr {l : Layout} (hfile : st'.read file = st.read file)
    (hmap : st'.lookup? l.mapJson = st.lookup? l.mapJson) :
    tourFindings l st' file = tourFindings l st file := by
  have hhas : st'.has l.mapJson = st.has l.mapJson := by rw [Store.has, Store.has, hmap]
  have hload : TourMap.load st' l.mapJson = TourMap.load st l.mapJson := by
    rcases hh : st.has l.mapJson with f | there
    · rw [TourMap.load, TourMap.load, hhas, hh]
      rfl
    · cases there with
      | false =>
        rw [TourMap.load, TourMap.load, hhas, hh]
        rfl
      | true =>
        rw [load_of_has (hhas.trans hh), load_of_has hh,
          readJson_congr (Store.read_congr hh hmap)]
  unfold tourFindings examineMap examineTour
  rw [hload, Tour.load, Tour.load, readJson_congr hfile]

/-- The tours of a directory are examined exactly if each can be judged, and what is found is what
is found of each, in order. -/
theorem examineTours_cases (known : Option (List String)) {directory : Path}
    (hfollowed : ∀ file ∈ tourFiles st directory, Followed st file) :
    let files := tourFiles st directory
    ((∀ file ∈ files, Legible st file) ∧ ∃ founds : Path → List Finding,
      (∀ file ∈ files, examineTour st known file = .ok (founds file)) ∧
      examineTours st known directory = .ok (if files = [] then
        [warn s!"No tour JSON files found in {directory}"] else files.flatMap founds)) ∨
    ((∃ file ∈ files, ¬ Legible st file) ∧ ∃ f, examineTours st known directory = .error f) := by
  intro files
  unfold examineTours
  by_cases hall : ∀ file ∈ files, Legible st file
  · refine .inl ⟨hall, ?_⟩
    let founds (file : Path) : List Finding := (examineTour st known file).toOption.getD []
    have hfounds : ∀ file ∈ files, examineTour st known file = .ok (founds file) := by
      intro file hfile
      obtain ⟨-, found, hfound, -⟩ | ⟨hl, -⟩ := examineTour_cases known (hfollowed file hfile)
      · simp only [founds, hfound]
        rfl
      · exact absurd (hall file hfile) hl
    refine ⟨founds, hfounds, ?_⟩
    have hmap : files.mapM (examineTour st known) = .ok (files.map founds) := by
      rw [mapM_eq_ok_iff, List.map_map]
      exact List.map_congr_left hfounds
    split
    · next hnone =>
      rw [if_pos hnone]
      rfl
    · next hne =>
      rw [if_neg hne, hmap, List.flatMap_def]
      rfl
  · obtain ⟨file, hfile, hl⟩ : ∃ file ∈ files, ¬ Legible st file := by simpa using hall
    refine .inr ⟨⟨file, hfile, hl⟩, ?_⟩
    rcases hmap : files.mapM (examineTour st known) with f | founds
    · split
      · next hnone =>
        rw [show files = [] from hnone] at hfile
        cases hfile
      · exact ⟨f, by rw [hmap]; rfl⟩
    · exfalso
      rw [mapM_eq_ok_iff] at hmap
      obtain ⟨found, -, hfound⟩ := List.mem_map.mp (hmap ▸ List.mem_map_of_mem hfile)
      obtain ⟨hl', -⟩ | ⟨-, f, hf⟩ := examineTour_cases known (hfollowed file hfile)
      · exact hl hl'
      · rw [hf] at hfound
        cases hfound

end Doctor

/-- The settings of a project are read without a change of its files; there are some if its file of
variables can be looked for and read. -/
theorem Settings.load_apply {σ : Type} (l : Layout) (given : Option EnvFile.Variables)
    (process : EnvFile.Variables) (sc : Scene σ) : ∃ sc', sc'.files = sc.files ∧
      Settings.load l given process sc = ((fileBindings sc.files l.envFile).map
        fun bindings => (ofSources bindings given process).1, sc') := by
  have hlog (lines : List Nat) (sc : Scene σ) : ∃ sc', sc'.files = sc.files ∧
      (forIn lines PUnit.unit fun line _ => do
        Act.log .warning .envFile
          s!"python-dotenv could not parse statement starting at line {line}"
        pure (ForInStep.yield PUnit.unit) : Act σ PUnit) sc = (.ok ⟨⟩, sc') := by
    induction lines generalizing sc with
    | nil => exact ⟨sc, rfl, rfl⟩
    | cons line lines ih =>
      rw [List.forIn_cons]
      obtain ⟨sc', hfiles, hrest⟩ := ih { sc with journal := sc.journal ++ [⟨.warning, .envFile,
        s!"python-dotenv could not parse statement starting at line {line}"⟩] }
      exact ⟨sc', hfiles, hrest⟩
  unfold Settings.load
  rcases hb : fileBindings sc.files l.envFile with f | bindings
  · refine ⟨sc, rfl, ?_⟩
    rw [Attempt.bind_apply, Act.look_apply, hb]
    rfl
  · obtain ⟨sc', hfiles, hloop⟩ := hlog (ofSources bindings given process).2 sc
    refine ⟨sc', hfiles, ?_⟩
    rw [Attempt.bind_apply, Act.look_apply, hb]
    dsimp only
    rw [Attempt.bind_ok hloop]
    rfl

namespace Doctor

/-- The file of variables is missing, or no file, or a text. -/
def MayBind (st : Store) (file : Path) : Prop :=
  ∃ there, st.hasFile file = .ok there ∧ (there = true → ∃ text, readText st file = .ok text)

theorem fileBindings_cases (st : Store) (file : Path) :
    (MayBind st file ∧ ∃ bindings, Settings.fileBindings st file = .ok bindings) ∨
      (¬ MayBind st file ∧ ∃ f, Settings.fileBindings st file = .error f) := by
  unfold Settings.fileBindings MayBind
  rcases hh : st.hasFile file with f | there
  · exact .inr ⟨by rintro ⟨_, ⟨⟩, _⟩, .file f, rfl⟩
  · cases there with
    | false => exact .inl ⟨⟨false, rfl, by simp⟩, [], rfl⟩
    | true =>
      rcases ht : readText st file with f | text
      · refine .inr ⟨fun h => ?_, f, rfl⟩
        obtain ⟨_, hthere, htext⟩ := h
        obtain ⟨text, htext⟩ := htext (Except.ok.inj hthere).symm
        cases htext
      · exact .inl ⟨⟨true, rfl, fun _ => ⟨text, rfl⟩⟩, _, rfl⟩

/-- A file that can be looked for as a file is there or it is not. -/
theorem MayBind.has {st : Store} {file : Path} (h : MayBind st file) :
    ∃ there, st.has file = .ok there := by
  obtain ⟨there, hthere, -⟩ := h
  rw [Store.hasFile] at hthere
  rcases hl : st.lookup? file with f | e
  · rw [hl] at hthere
    cases hthere
  · exact ⟨e.isSome, by rw [Store.has, hl]; rfl⟩

/-- What the doctor finds in a project with some files, or the first fault on the way. -/
def examined (l : Layout) (given : Option EnvFile.Variables) (process : EnvFile.Variables)
    (engine : Option String) (st : Store) : Except Fault (List Finding) := do
  let routes ← examineFile st (l.config / "routes.json") Vocabulary.routesFormat
  let events ← examineFile st (l.config / "events.json") Vocabulary.eventsFormat
  let (map, known) ← examineMap st l.mapJson
  let envFile ← examineEnvFile st l.envFile
  let bindings ← Settings.fileBindings st l.envFile
  let settings := (Settings.ofSources bindings given process).1
  let tours ← examineTours st known l.tours
  return [routes, events, map, envFile, examineVariable l.envFile "E2E_EMAIL" settings.email,
    examineVariable l.envFile "E2E_PASSWORD" settings.password, examineEngine engine] ++ tours

theorem examine_apply {σ : Type} (l : Layout) (given : Option EnvFile.Variables)
    (process : EnvFile.Variables) (engine : Option String) (sc : Scene σ) :
    (examine l given process engine sc).1 = examined l given process engine sc.files := by
  unfold examine examined
  rw [Attempt.bind_apply, Act.look_apply]
  rcases examineFile sc.files (l.config / "routes.json") Vocabulary.routesFormat with f | routes
  · rfl
  dsimp only
  rw [ok_bind, Attempt.bind_apply, Act.look_apply]
  rcases examineFile sc.files (l.config / "events.json") Vocabulary.eventsFormat with f | events
  · rfl
  dsimp only
  rw [ok_bind, Attempt.bind_apply, Act.look_apply]
  rcases examineMap sc.files l.mapJson with f | ⟨map, known⟩
  · rfl
  dsimp only
  rw [ok_bind, Attempt.bind_apply, Act.look_apply]
  rcases examineEnvFile sc.files l.envFile with f | envFile
  · rfl
  dsimp only
  obtain ⟨sc', hfiles, hload⟩ := Settings.load_apply l given process sc
  rw [ok_bind, Attempt.bind_apply, hload]
  rcases Settings.fileBindings sc.files l.envFile with f | bindings
  · rfl
  dsimp only [Except.map]
  rw [ok_bind, Attempt.bind_apply, Act.look_apply, hfiles]
  rcases examineTours sc.files known l.tours with f | tours
  · rfl
  · rfl

/-- The documents that the doctor reads. -/
def documents (l : Layout) (st : Store) : List Path :=
  [l.config / "routes.json", l.config / "events.json", l.mapJson] ++ tourFiles st l.tours

/-- The files that the doctor reads can all be judged. -/
structure Examinable (l : Layout) (st : Store) : Prop where
  routes : Judgeable st (l.config / "routes.json")
  events : Judgeable st (l.config / "events.json")
  map : Judgeable st l.mapJson
  envFile : MayBind st l.envFile
  tours : ∀ file ∈ tourFiles st l.tours, Legible st file

/-- Findings by what they are about. -/
structure Report where
  routes : Finding
  events : Finding
  map : Finding
  others : List Finding
  tours : Path → List Finding

/-- The findings of a report on a project, in order. -/
def Report.findings (r : Report) (l : Layout) (st : Store) : List Finding :=
  [r.routes, r.events, r.map] ++ r.others ++ if tourFiles st l.tours = [] then
    [warn s!"No tour JSON files found in {l.tours}"] else (tourFiles st l.tours).flatMap r.tours

theorem Report.mem_findings (r : Report) {l : Layout} {st : Store} {file : Path} {x : Finding}
    (hfile : file ∈ tourFiles st l.tours) (hx : x ∈ r.tours file) : x ∈ r.findings l st := by
  unfold findings
  rw [if_neg (List.ne_nil_of_mem hfile)]
  exact List.mem_append_right _ (List.mem_flatMap.mpr ⟨file, hfile, hx⟩)

/-- A report says of each file whether it holds a document of its kind; of a map also that there is
none. What it says of a tour is what is found of the tour by itself. -/
structure Report.IsOf (r : Report) (l : Layout) (st : Store) : Prop where
  routes : r.routes.Judges (Holds st (l.config / "routes.json") Vocabulary.routesFormat)
  events : r.events.Judges (Holds st (l.config / "events.json") Vocabulary.eventsFormat)
  map : (st.has l.mapJson = .ok false ∧ r.map.health = .warn) ∨
    (st.has l.mapJson = .ok true ∧ r.map.Judges (Holds st l.mapJson TourMap.format))
  tours : ∀ file ∈ tourFiles st l.tours,
    tourFindings l st file = .ok (r.tours file) ∧
    ((Holds st file Tour.format ∧
        (r.tours file).head? = some (pass s!"{file.name} valid against tour schema")) ∨
      (¬ Holds st file Tour.format ∧ ∃ m, r.tours file = [fail m]))

/-- There is a report of a project whose files can all be judged, and a fault else. -/
theorem examined_cases {l : Layout} (given : Option EnvFile.Variables)
    (process : EnvFile.Variables) (engine : Option String)
    (hfollowed : ∀ file ∈ documents l st, Followed st file) :
    (Examinable l st ∧ ∃ r : Report, r.IsOf l st ∧
      examined l given process engine st = .ok (r.findings l st)) ∨
    (¬ Examinable l st ∧ ∃ f, examined l given process engine st = .error f) := by
  unfold documents at hfollowed
  rw [List.forall_mem_append, List.forall_mem_cons, List.forall_mem_cons,
    List.forall_mem_singleton] at hfollowed
  obtain ⟨⟨hfr, hfe, hfm⟩, hft⟩ := hfollowed
  unfold examined
  obtain ⟨hr, routes, hroutes, hjr⟩ | ⟨hr, f, hroutes⟩ :=
    examineFile_cases hfr Vocabulary.routesFormat
  case inr => exact .inr ⟨fun h => hr h.routes, f, by rw [hroutes]; rfl⟩
  obtain ⟨he, events, hevents, hje⟩ | ⟨he, f, hevents⟩ :=
    examineFile_cases hfe Vocabulary.eventsFormat
  case inr => exact .inr ⟨fun h => he h.events, f, by rw [hroutes, hevents]; rfl⟩
  obtain ⟨hm, map, known, hmap, hjm⟩ | ⟨hm, f, hmap⟩ := examineMap_cases hfm
  case inr => exact .inr ⟨fun h => hm h.map, f, by rw [hroutes, hevents, hmap]; rfl⟩
  obtain ⟨hv, bindings, hbindings⟩ | ⟨hv, f, hbindings⟩ := fileBindings_cases st l.envFile
  case inr =>
    refine .inr ⟨fun h => hv h.envFile, ?_⟩
    rw [hroutes, hevents, hmap, ok_bind, ok_bind, ok_bind]
    rcases examineEnvFile st l.envFile with g | x
    · exact ⟨g, rfl⟩
    · exact ⟨f, by rw [hbindings]; rfl⟩
  obtain ⟨there, hthere⟩ := hv.has
  obtain ⟨envFile, henvFile⟩ : ∃ x, examineEnvFile st l.envFile = .ok x := by
    rw [examineEnvFile, hthere]
    cases there <;> exact ⟨_, rfl⟩
  rw [hroutes, hevents, hmap, ok_bind, ok_bind, ok_bind]
  dsimp only
  rw [henvFile, hbindings, ok_bind, ok_bind]
  obtain ⟨ht, founds, hfounds, htours⟩ | ⟨⟨file, hfile, hl⟩, f, htours⟩ :=
    examineTours_cases known hft
  case inr => exact .inr ⟨fun h => hl (h.tours file hfile), f, by rw [htours]; rfl⟩
  let people := (Settings.ofSources bindings given process).1
  let others := [envFile, examineVariable l.envFile "E2E_EMAIL" people.email,
    examineVariable l.envFile "E2E_PASSWORD" people.password, examineEngine engine]
  refine .inl ⟨⟨hr, he, hm, hv, ht⟩, ⟨routes, events, map, others, founds⟩, ?_, ?_⟩
  · refine ⟨hjr, hje, hjm, fun file hfile => ⟨?_, ?_⟩⟩
    · rw [tourFindings, hmap, ok_bind]
      exact hfounds file hfile
    · obtain ⟨-, found, hfound, hfits⟩ | ⟨hl, -⟩ := examineTour_cases known (hft file hfile)
      · rw [hfounds file hfile] at hfound
        cases hfound
        exact hfits
      · exact absurd (ht file hfile) hl
  · rw [htours]
    rfl

end Doctor

end Walkthrough
