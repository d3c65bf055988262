import Walkthrough.Proofs.CommandLine
import Walkthrough.Proofs.Compile.RoundTrip
import Walkthrough.Proofs.Tour.Id
/-!
Compiling leaves all of its result or nothing. Everything that a guide can be refused for is found
before anything is written, and then one file is: the tour's, directly in the directory of tours.
-/

namespace Walkthrough

open CommandLine (compileWords)

namespace Vocabulary

theorem readFile_fault {st : Store} {file : Path} {format : Schema} {f : Fault}
    (h : readFile st file format = .error f) : (∃ c, f = .config c) ∨ compileWords f = none := by
  unfold readFile at h
  rcases ht : readText st file with g | text
  · rw [ht] at h
    cases h
    rcases readText_fault ht with ⟨⟨cause, p⟩, -, rfl⟩ | ⟨e, rfl⟩
    · cases cause with
      | absent => exact .inl ⟨_, rfl⟩
      | _ => exact .inr rfl
    · exact .inr rfl
  · rw [ht] at h
    dsimp only [Except.mapError, bind, Except.bind] at h
    split at h
    · cases h
      exact .inr rfl
    · cases h
      exact .inl ⟨_, rfl⟩
    · split at h
      · cases h
        exact .inl ⟨_, rfl⟩
      · cases h

/-- There are words for a vocabulary that cannot be read only if it is ill configured. -/
theorem load_fault {st : Store} {directory : Path} {f : Fault} (h : load st directory = .error f) :
    (∃ c, f = .config c) ∨ compileWords f = none := by
  unfold load at h
  rcases hr : readFile st (directory / "routes.json") routesFormat with g | routes
  · rw [hr] at h
    cases h
    exact readFile_fault hr
  rw [hr, ok_bind] at h
  rcases he : readFile st (directory / "events.json") eventsFormat with g | events
  · rw [he] at h
    cases h
    exact readFile_fault he
  rw [he, ok_bind] at h
  dsimp only at h
  split at h
  · cases h
    exact .inl ⟨_, rfl⟩
  · cases h

end Vocabulary

namespace CommandLine

variable {ι σ : Type}

theorem forIn_log_ok (level : Level) (channel : Channel) (ws : List String) (sc : Scene σ) :
    ((forIn ws PUnit.unit fun w _ => do
      Act.log level channel w
      pure (ForInStep.yield PUnit.unit) : Act σ PUnit) sc).1 = .ok ⟨⟩ := by
  induction ws generalizing sc with
  | nil => rfl
  | cons w ws ih =>
    rw [List.forIn_cons]
    exact ih { sc with journal := sc.journal ++ [⟨level, channel, w⟩] }

theorem fileless_compileFile (setting : Compile.Setting) (guide : Path) :
    Fileless (compileFile setting guide : Act σ Tour) := by
  unfold compileFile
  apply Fileless.bind (.look _)
  intro text
  apply Fileless.bind (.look _)
  intro t
  apply Fileless.bind
  · exact .forIn (fun w _ => .bind (.log _ _ _) fun _ => .pure _) _
  · intro _
    exact .bind (fun _ => rfl) fun _ => .pure _

/-- Whether a guide is compiled is decided by what it is read as, not by what is noted. -/
theorem compileFile_apply (setting : Compile.Setting) (guide : Path) (sc : Scene σ) :
    (compileFile setting guide sc).1 = (do
      let text ← readText sc.files guide
      Compile.text sc.files setting guide.stem guide.text text) := by
  unfold compileFile Compile.text
  rw [Attempt.bind_apply, Act.look_apply]
  rcases readText sc.files guide with f | text
  · rfl
  dsimp only
  rw [Attempt.bind_apply, Act.look_apply, ok_bind]
  rcases Compile.draft sc.files setting guide.stem guide.text text with f | t
  · rfl
  dsimp only
  have hloop := forIn_log_ok .warning .compiler (Compile.warnings setting) sc
  rw [Attempt.bind_of_ok hloop, ok_bind, Attempt.bind_apply]
  unfold Attempt.decided
  rcases Compile.check setting guide.text t with f | ⟨⟩
  · rfl
  · rfl

variable (s : Surroundings ι σ)

/-- What guides are compiled with in a project. -/
def setting (a : Arguments) (v : Vocabulary) (m : Option TourMap) : Compile.Setting :=
  { vocabulary := v, map := m
    fragments := some ((a.path? .fragments).getD (layout s a).fragments) }

/-- What a guide is compiled to in a project with some files, or the first fault on the way. -/
def compiled (a : Arguments) (guide : Path) (st : Store) : Except Fault Tour := do
  let v ← Vocabulary.load st (layout s a).config
  let m ← TourMap.load st (layout s a).mapJson
  let text ← readText st guide
  Compile.text st (setting s a v m) guide.stem guide.text text

/-- The directory that compiled tours are put in. -/
def toursDirectory (a : Arguments) : Path := (a.path? .tours).getD (layout s a).tours

/-- A command up to the tour that it is to write. -/
def prepare (a : Arguments) (guide : Path) : Doing σ Tour := do
  let v ← vocabulary (layout s a)
  orEnd compileWords do
    let m ← Act.look fun st => TourMap.load st (layout s a).mapJson
    compileFile (setting s a v m) guide

theorem compile_eq (a : Arguments) (guide : Path) : compile s a guide = (do
    let t ← prepare s a guide
    plain (Act.file (Compile.write (toursDirectory s a) t))
    return { output :=
      [s!"Wrote {Compile.destination (toursDirectory s a) t} ({t.steps.length} steps)"] }) := by
  unfold compile prepare
  rw [bind_assoc]
  rfl

variable {s} {a : Arguments} {guide : Path} {sc : Scene σ}

theorem fileless_prepare : Fileless (prepare s a guide) := by
  unfold prepare
  apply Fileless.bind (fileless_vocabulary _)
  intro v
  apply fileless_orEnd
  exact .bind (.look _) fun m => fileless_compileFile _ guide

/-- A guide that can be compiled is. -/
theorem prepare_of_ok {t : Tour} (h : compiled s a guide sc.files = .ok t) :
    (prepare s a guide sc).1 = .ok t := by
  obtain ⟨v, hv, h⟩ := bind_eq_ok.mp h
  obtain ⟨m, hm, h⟩ := bind_eq_ok.mp h
  have hvocabulary : vocabulary (layout s a) sc = (.ok v, sc) := by
    rw [vocabulary, orEnd_apply, Act.look_apply, hv]
    rfl
  have hmap : (Act.look fun st => TourMap.load st (layout s a).mapJson : Act σ _) sc =
      (.ok m, sc) := by
    rw [Act.look_apply, hm]
  unfold prepare
  rw [Attempt.bind_ok hvocabulary, orEnd_apply, Attempt.bind_ok hmap,
    compileFile_apply (setting s a v m) guide sc, h]
  rfl

/-- A vocabulary that cannot be read ends a command as a guide does that is refused for it. -/
theorem vocabulary_of_error {l : Layout} {f : Fault}
    (h : Vocabulary.load sc.files l.config = .error f) :
    ∃ e, vocabulary l sc = (.error e, sc) ∧
      e.code = if (compileWords f).isSome then .ok 1 else .error f := by
  unfold vocabulary
  rw [orEnd_apply, Act.look_apply, h]
  refine ⟨_, rfl, ?_⟩
  rw [code_haltOf]
  rcases Vocabulary.load_fault h with ⟨c, rfl⟩ | hnone
  · rfl
  · rw [hnone]
    cases f with
    | config c => cases hnone
    | _ => rfl

/-- A guide that is refused ends the command, in order if there are words for it. -/
theorem prepare_of_error {f : Fault} (h : compiled s a guide sc.files = .error f) :
    ∃ e, (prepare s a guide sc).1 = .error e ∧
      e.code = if (compileWords f).isSome then .ok 1 else .error f := by
  unfold compiled at h
  unfold prepare
  rcases hv : Vocabulary.load sc.files (layout s a).config with f' | v
  · rw [hv] at h
    cases h
    obtain ⟨e, he, hcode⟩ := vocabulary_of_error hv
    exact ⟨e, congrArg Prod.fst (Attempt.bind_error he _), hcode⟩
  · rw [hv, ok_bind] at h
    have hvocabulary : vocabulary (layout s a) sc = (.ok v, sc) := by
      rw [vocabulary, orEnd_apply, Act.look_apply, hv]
      rfl
    refine ⟨haltOf compileWords f, ?_, code_haltOf _ _⟩
    rw [Attempt.bind_ok hvocabulary, orEnd_apply, Attempt.bind_apply, Act.look_apply]
    rcases hm : TourMap.load sc.files (layout s a).mapJson with f' | m
    · rw [hm] at h
      cases h
      rfl
    · rw [hm, ok_bind] at h
      dsimp only
      rw [compileFile_apply (setting s a v m) guide sc, h]
      rfl

theorem outcome_compile_of_error {f : Fault} (hroot : a.lacksValue .root = false)
    (h : compiled s a a.file sc.files = .error f) :
    (outcome s .compile a sc).1.ended =
        (if (compileWords f).isSome then .ok 1 else .error f) ∧
      (outcome s .compile a sc).2.files = sc.files := by
  obtain ⟨e, he, hcode⟩ := prepare_of_error h
  have hcompile : compile s a a.file sc = (.error e, (prepare s a a.file sc).2) := by
    rw [compile_eq, Attempt.bind_of_error he]
  rw [outcome_ended, perform_compile s hroot, hcompile]
  refine ⟨hcode, ?_⟩
  change (perform s .compile a sc).2.files = sc.files
  rw [perform_compile s hroot, hcompile]
  exact fileless_prepare sc

theorem outcome_compile_of_ok {t : Tour} (hroot : a.lacksValue .root = false)
    (h : compiled s a a.file sc.files = .ok t) :
    (outcome s .compile a sc).1.ended =
        (Compile.write (toursDirectory s a) t sc.files).1.map (fun _ => 0) ∧
      (outcome s .compile a sc).2.files = (Compile.write (toursDirectory s a) t sc.files).2 := by
  have hcompile : codeOf (compile s a a.file sc).1 =
        (Compile.write (toursDirectory s a) t sc.files).1.map (fun _ => 0) ∧
      (compile s a a.file sc).2.files = (Compile.write (toursDirectory s a) t sc.files).2 := by
    rw [compile_eq, Attempt.bind_of_ok (prepare_of_ok h), Attempt.bind_apply, plain, orEnd_apply,
      Act.file_apply, fileless_prepare sc]
    rcases Compile.write (toursDirectory s a) t sc.files with ⟨f | ⟨⟩, st⟩
    · exact ⟨rfl, rfl⟩
    · exact ⟨rfl, rfl⟩
  rw [outcome_ended, perform_compile s hroot]
  refine ⟨hcompile.1, ?_⟩
  change (perform s .compile a sc).2.files = _
  rw [perform_compile s hroot]
  exact hcompile.2

/-- The tour that a guide is compiled to has the guide's name as its id, which is a name. -/
theorem compiled_id {t : Tour} {st : Store} (h : compiled s a guide st = .ok t) :
    t.id = guide.stem ∧ Pattern.tourId.admits t.id = true := by
  obtain ⟨v, -, h⟩ := bind_eq_ok.mp h
  obtain ⟨m, -, h⟩ := bind_eq_ok.mp h
  obtain ⟨text, -, h⟩ := bind_eq_ok.mp h
  obtain ⟨steps, -, ht, -, hformat⟩ := Compile.text_ok h
  have haccepts := (Schema.complaint?_eq_none_iff _ _).mp hformat
  exact ⟨by rw [ht], ((Tour.accepts_toJson_iff t).mp haccepts).1⟩

/-- A command that compiles and ends with the code 0 has written the guide's tour, and that last. -/
theorem exists_written (h : (outcome s .compile a sc).1.ended = .ok 0) :
    ∃ t, compiled s a a.file sc.files = .ok t ∧
      Compile.write (toursDirectory s a) t sc.files =
        (.ok (), (outcome s .compile a sc).2.files) := by
  cases hroot : a.lacksValue .root with
  | true =>
    obtain ⟨f, hf⟩ := perform_of_lacksValue s hroot .compile sc
    rw [outcome_ended, hf] at h
    cases h
  | false =>
    rcases hc : compiled s a a.file sc.files with f | t
    · rw [(outcome_compile_of_error hroot hc).1] at h
      split at h
      · cases h
      · cases h
    · obtain ⟨hended, hfiles⟩ := outcome_compile_of_ok hroot hc
      refine ⟨t, rfl, ?_⟩
      rw [hfiles]
      rcases hw : Compile.write (toursDirectory s a) t sc.files with ⟨f | ⟨⟩, st⟩
      · rw [hended, hw] at h
        cases h
      · rfl

/-- A command that compiles ends with the code 1 exactly if its guide is refused, and then it has
left every file and directory as it was. It ends with the code 0 exactly if the guide is compiled
and its tour can be written; then the tour's document is in the file of the guide's name, directly
in the directory of tours, and nothing else was done but that directories were made on the way. -/
theorem compile_atomic (s : Surroundings ι σ) (a : Arguments) (sc : Scene σ) :
    ((outcome s .compile a sc).1.ended = .ok 1 ↔ a.lacksValue .root = false ∧
      ∃ f, compiled s a a.file sc.files = .error f ∧ (compileWords f).isSome = true) ∧
    ((outcome s .compile a sc).1.ended = .ok 1 →
      (outcome s .compile a sc).2.files = sc.files) ∧
    ((outcome s .compile a sc).1.ended = .ok 0 ↔ a.lacksValue .root = false ∧
      ∃ t, compiled s a a.file sc.files = .ok t ∧
        (Compile.write (toursDirectory s a) t sc.files).1 = .ok ()) ∧
    ((outcome s .compile a sc).1.ended = .ok 0 →
      let st := (outcome s .compile a sc).2.files
      let file := a.file.stem ++ ".tour.json"
      ∃ t dir, compiled s a a.file sc.files = .ok t ∧ t.id = a.file.stem ∧
        st.locate (toursDirectory s a) = .ok dir ∧ st.at? dir = some .directory ∧
        st.locate (toursDirectory s a / file) = .ok (dir ++ [file]) ∧
        st.at? (dir ++ [file]) = some (.file (Text.Utf8.encode t.fileText.toList)) ∧
        ∀ loc, loc ≠ dir ++ [file] → st.at? loc = sc.files.at? loc ∨
          (sc.files.at? loc = none ∧ st.at? loc = some .directory ∧
            st.OnWay (toursDirectory s a) loc)) := by
  cases hroot : a.lacksValue .root with
  | true =>
    obtain ⟨f, hf⟩ := perform_of_lacksValue s hroot .compile sc
    have hended : (outcome s .compile a sc).1.ended = .error f := by
      rw [outcome_ended, hf]
      rfl
    simp [hended]
  | false =>
    rcases hc : compiled s a a.file sc.files with f | t
    · obtain ⟨hended, hfiles⟩ := outcome_compile_of_error hroot hc
      rw [hended, hfiles]
      by_cases hw : (compileWords f).isSome = true
      · simp [hw]
      · simp [hw]
    · obtain ⟨hended, hfiles⟩ := outcome_compile_of_ok hroot hc
      obtain ⟨hid, hadmits⟩ := compiled_id hc
      rcases hw : Compile.write (toursDirectory s a) t sc.files with ⟨f | ⟨⟩, st⟩
      · rw [hw] at hended
        simp [hended, hw, Except.map]
      · rw [hw] at hended hfiles
        rw [hended, hfiles]
        have hname : Path.IsName (a.file.stem ++ ".tour.json") := by
          rw [← hid]
          exact isName_of_admits_tourId hadmits (by decide)
        have hwrite : Filing.writeText (toursDirectory s a / (a.file.stem ++ ".tour.json"))
            t.fileText sc.files = (.ok (), st) := by
          rw [← hid]
          exact hw
        obtain ⟨dir, hdir, hthere, hfile, hcontent, hothers⟩ := Filing.writeText_spec hname hwrite
        refine ⟨by simp [Except.map], by simp [Except.map], by simp [hw, Except.map], fun _ => ?_⟩
        exact ⟨t, dir, rfl, hid, hdir, hthere, hfile, hcontent, hothers⟩

end CommandLine

end Walkthrough
