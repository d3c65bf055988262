import Walkthrough.Proofs.CommandLine
import Walkthrough.Proofs.Execution
import Walkthrough.Proofs.Run.Inventory
import Walkthrough.Proofs.Tour.Id
/-!
Where a run leaves its traces: in its own directory and nowhere else, whatever names its tour holds.
The directory is named by the tour's id, which the format of tours keeps to one part of a path, and
a screenshot's file by what is left of its name.
-/

namespace Walkthrough

namespace Run

open Player (ownNames ofString_ownName)

theorem isName_ownName : ∀ name ∈ ownNames, Path.IsName name := by
  intro name hn
  refine ⟨ofString_ownName name hn, ?_⟩
  rintro rfl
  exact absurd hn (by decide)

theorem isName_shotName (index : Nat) (name : String) : Path.IsName (shotName index name) := by
  refine ⟨ofString_shotName index name, fun hup => ?_⟩
  have hlast := getLast?_shotName index name
  rw [hup] at hlast
  cases hlast

theorem isName_screens : Path.IsName "screens" := ⟨by decide, by decide⟩

/-- The files of a run in a directory. -/
def RunFile (directory file : Path) : Prop :=
  (∃ name ∈ ownNames, file = directory / name) ∨
    ∃ index name, file = shotPath directory index name

variable {ε ι σ α β : Type}

/-- Work on files touches none but those of the run in a directory. -/
def Confined (directory : Path) (w : Filing α) : Prop :=
  ∀ fs, Store.Touches (directory / "screens") (RunFile directory) fs (w fs).2

namespace Confined

variable {directory : Path} {w : Filing α} {f : α → Filing β} {name : String}

theorem bind (hw : Confined directory w) (hf : ∀ x, Confined directory (f x)) :
    Confined directory (w >>= f) := by
  intro fs
  apply Attempt.bind_keeps (I := Store.Touches (directory / "screens") (RunFile directory) fs)
  · intro fs' h
    exact h.trans (hw fs')
  · intro x fs' h
    exact h.trans (hf x fs')
  · exact .refl fs

theorem screens : Confined directory (Filing.makeDirectories (directory / "screens")) :=
  fun fs => Filing.makeDirectories_touches _ fs

/-- The directory of a run is on the way to that of its screenshots. -/
theorem makeDirectories : Confined directory (Filing.makeDirectories directory) := by
  intro fs
  have htouches : Store.Touches directory (RunFile directory) fs
      (Filing.makeDirectories directory fs).2 := Filing.makeDirectories_touches _ fs
  apply htouches.mono
  · rw [Path.join_name _ _ isName_screens.single]
    exact ⟨rfl, List.prefix_append _ _⟩
  · exact fun _ h => h

variable (hn : name ∈ ownNames)

include hn

theorem append (content : Text.Utf8.Bytes) :
    Confined directory (Filing.append (directory / name) content) :=
  fun fs => Filing.append_touches (Or.inl ⟨name, hn, rfl⟩) content fs

theorem parent : (directory / name).parent = directory :=
  Path.parent_join_name _ _ (ofString_ownName name hn)

theorem writeText (text : String) :
    Confined directory (Filing.writeText (directory / name) text) := by
  unfold Filing.writeText
  rw [parent hn]
  exact .bind makeDirectories fun _ fs => Filing.write_touches (Or.inl ⟨name, hn, rfl⟩) _ fs

end Confined

/-- What is left of some files when none but those of a run have been touched. -/
def Within (directory : Path) (fs₀ fs : Store) (_ : Result) : Prop :=
  Store.Touches (directory / "screens") (RunFile directory) fs₀ fs

namespace Player

variable {p : Player ι σ} {fs₀ : Store} {index : Nat} {tourId : String}

theorem within_file {directory : Path} {w : Filing α} {cause : Fault → ε}
    (hw : Confined directory w) : Leaves (Within directory fs₀) (Within directory fs₀)
      (onScene cause (Act.file w) : Play ε σ α) :=
  .file fun fs _ h => h.trans (hw fs)

theorem within_update {directory : Path} (g : Result → Result) :
    Leaves (Within directory fs₀) (Within directory fs₀) (Run.update g : Play ε σ Unit) :=
  .update fun _ _ h => h

theorem within_shoot (name : String) (fullPage : Option Bool) :
    Leaves (Within p.config.directory fs₀) (Within p.config.directory fs₀)
      (p.shoot index (.str name) (fullPage.map .bool)) := by
  have hwrite (image : Text.Utf8.Bytes) : Confined p.config.directory
      (Filing.write (shotPath p.config.directory index name) image) :=
    fun fs => Filing.write_touches (Or.inr ⟨index, name, rfl⟩) image fs
  rw [shoot_str]
  apply Leaves.still_bind (.ask _)
  · intro image
    exact .bind (within_file (hwrite image)) (fun _ => .still_bind (.note _)
      (fun _ => within_update _) fun _ _ h => h) fun _ _ h => h
  · exact fun _ _ h => h

theorem within_queueMarkup (label : String) (m : MarkupOf Json) :
    Leaves (Within p.config.directory fs₀) (Within p.config.directory fs₀)
      (p.queueMarkup tourId index label m) := by
  have hqueue : "annotations.jsonl" ∈ ownNames := by decide
  have hjob (j : Job) :
      Confined p.config.directory (j.append (p.config.directory / "annotations.jsonl")) := by
    unfold Job.append
    rw [Confined.parent hqueue]
    exact .bind .makeDirectories fun _ => .append hqueue _
  exact .still_bind .refl (fun st => .bind (within_file (hjob _)) (fun _ => .bind_still
    (within_update _) fun _ => .note _) fun _ _ h => h) fun _ _ h => h

/-- Whatever a step holds, none of its parts touches a file that is not the run's. -/
theorem within_passes (s : Step) : p.Passes tourId index s
    (Within p.config.directory fs₀) (Within p.config.directory fs₀)
    (Within p.config.directory fs₀) (Within p.config.directory fs₀)
    (Within p.config.directory fs₀) where
  speak _ _ := within_update _
  before := .capture (fun _ _ h => h) fun c _ _ => within_shoot c.name c.fullPage
  action := .perform (fun _ _ h => h) (fun _ => within_update _)
    (fun name _ fullPage _ => within_shoot name fullPage) fun _ _ _ _ => within_queueMarkup _ _
  after := .capture (fun _ _ h => h) fun c _ _ => within_shoot c.name c.fullPage
  markup _ := within_queueMarkup _ _
  fail _ _ := within_update _
  record _ _ := .still_bind (.now _) (fun _ => within_update _) fun _ _ h => h
  first _ _ h := h
  second _ _ h := h
  third _ _ h := h
  last _ _ h := h

theorem within_playCues (k : Nat) (steps : List Step) :
    Leaves (Within p.config.directory fs₀) (Within p.config.directory fs₀)
      (p.playCues tourId k (steps.map Step.cue)) := by
  induction steps generalizing k with
  | nil => exact .of_still (.pure ())
  | cons s steps ih =>
    rw [List.map_cons, Player.playCues]
    refine .bind (within_passes s).recordCue (fun goesOn => ?_) fun _ _ h => h
    split_ifs
    · exact ih (k + 1)
    · exact .of_still (.pure ())

theorem within_opening :
    Leaves (Within p.config.directory fs₀) (Within p.config.directory fs₀) p.opening := by
  have hlog : "runlog.txt" ∈ ownNames := by decide
  have hstart : Confined p.config.directory (RunLog.start p.logFile) := by
    unfold RunLog.start logFile
    rw [Confined.parent hlog]
    exact .bind .makeDirectories fun _ => .append hlog _
  exact .bind (within_file .screens) (fun _ => within_file hstart) fun _ _ h => h

theorem within_finish :
    Leaves (Within p.config.directory fs₀) (Within p.config.directory fs₀) p.finish := by
  have hresult (r : Result) :
      Confined p.config.directory (r.write p.config.date p.config.directory) :=
    .bind (.bind (.writeText (by decide) _) fun _ => .writeText (by decide) _) fun _ =>
      .bind (.writeText (by decide) _) fun _ => .writeText (by decide) _
  exact .still_bind .refl (fun st => .bind_still (within_file (hresult _)) fun _ => .note _)
    fun _ _ h => h

theorem within_writeNotes :
    Leaves (Within p.config.directory fs₀) (Within p.config.directory fs₀) p.writeNotes := by
  have hlines (lines : List String) :
      Confined p.config.directory (lines.forM (RunLog.append p.logFile p.config.date)) := by
    intro fs
    apply Attempt.forM_keeps
    · intro line fs' h
      exact h.trans (Confined.append (by decide) _ fs')
    · exact .refl fs
  exact .still_bind .refl (fun st => within_file (hlines _)) fun _ _ h => h

/-- A run touches no files but its own, however it ends. -/
theorem run_touches (p : Player ι σ) (t : Tour) (sc : Scene σ) :
    Store.Touches (p.config.directory / "screens") (RunFile p.config.directory) sc.files
      (p.run t sc).2.files := by
  have hplay : Leaves (Within p.config.directory sc.files) (Within p.config.directory sc.files)
      (p.play t.id t.cues) := by
    rw [play_eq]
    refine .bind within_opening (fun _ => .thenAlways (.still_bind (.note _) (fun _ => .thenAlways
      (.still_bind ?_ (fun _ => within_playCues 0 t.steps) fun _ _ h => h) within_finish)
        fun _ _ h => h) within_writeNotes) fun _ _ h => h
    exact .act _ fun _ => rfl
  exact (hplay (.fresh t.id sc)).2 (.refl sc.files)

end Player

end Run

open Run (RunFile)

variable {ι σ : Type}

/-- An execution touches no files but those of its run, and none unless its document is a tour. -/
theorem Execution.execute_touches {e : Execution ι σ} (hs : e.session.Fileless) (document : Json)
    (directory : Path) (sc : Scene σ) :
    (e.execute document directory sc).2.files = sc.files ∨ ∃ t, Tour.ofJson document = .ok t ∧
      Store.Touches (directory / "screens") (RunFile directory) sc.files
        (e.execute document directory sc).2.files := by
  obtain ⟨c, -, hc⟩ | ⟨t, -, ht⟩ := Tour.ofJson_cases document
  · exact .inl (by rw [execute_of_error hc])
  · have hopened : (e.opened t directory sc).2.files = sc.files :=
      hs.opening e.options (e.announced t directory sc)
    rcases ho : (e.opened t directory sc).1 with f | ⟨⟩
    · left
      rw [opened_of_execute ht ho, hopened]
    · right
      refine ⟨t, ht, ?_⟩
      have hplay : Store.Touches (directory / "screens") (RunFile directory)
          (e.opened t directory sc).2.files
          (e.play t directory (e.opened t directory sc).2).2.files :=
        Run.Player.run_touches ⟨e.page, e.timing, e.config directory⟩ t _
      rw [hopened] at hplay
      rw [(execute_of_opened ht ho).1, hs.closing]
      exact hplay

namespace CommandLine

variable {s : Surroundings ι σ} {a : Arguments} {file : Path} {sc : Scene σ}

/-- The id that a document gives, or else the name of its file. -/
def runName (document : Json) (file : Path) : String :=
  (((document.get? "tourId").bind Json.str?).filter (· != "")).getD file.stem

/-- The run of a tour has its id. -/
theorem runName_of_ok {document : Json} {t : Tour} (h : Tour.ofJson document = .ok t) :
    runName document file = t.id := by
  have hne : (t.id != "") = true := by simpa using (Tour.isName_id h).ne_empty
  rw [runName, Tour.get?_tourId_of_ofJson h]
  change ((some t.id).filter (· != "")).getD file.stem = t.id
  rw [Option.filter_some, if_pos hne]
  rfl

/-- What a command executes a tour with. -/
def execution (s : Surroundings ι σ) (a : Arguments) (v : Vocabulary) (settings : Settings) :
    Execution ι σ where
  page := s.page
  timing := s.timing
  session := s.session
  vocabulary := v
  settings := settings
  awaitRoutes := !a.has .noRouteReady
  date := s.date
  grace := s.grace

/-- All that a command does to the files is the execution of the document it has read. -/
theorem run_files (hout : a.path? .output = none) :
    (run s a file sc).2.files = sc.files ∨ ∃ document, readJson sc.files file = .ok document ∧
      ∃ v settings, ∃ sc' : Scene σ, sc'.files = sc.files ∧ (run s a file sc).2.files =
        ((execution s a v settings).execute document (Layout.runDirectory (layout s a).artifacts
          (runName document file) s.stamp) sc').2.files := by
  unfold run
  dsimp only
  obtain h | ⟨v, sc₁, -, hfiles₁, h⟩ := Fileless.bind_cases (fileless_vocabulary (layout s a)) _ sc
  · exact .inl h
  rw [h]
  obtain h | ⟨settings, sc₂, -, hfiles₂, h⟩ :=
    Fileless.bind_cases (fileless_settings s a (layout s a)) _ sc₁
  · exact .inl (h.trans hfiles₁)
  rw [h]
  have hread : Fileless (orEnd (tourWords file) (Act.look fun st => readJson st file) :
      Doing σ Json) := fileless_orEnd (.look _)
  obtain h | ⟨document, sc₃, hdocument, hfiles₃, h⟩ := Fileless.bind_cases hread _ sc₂
  · exact .inl (h.trans (hfiles₂.trans hfiles₁))
  rw [h]
  right
  rw [orEnd_apply, Act.look_apply, hfiles₂, hfiles₁] at hdocument
  refine ⟨document, ?_, ?_⟩
  · rcases hr : readJson sc.files file with f | v
    · rw [hr] at hdocument
      cases hdocument
    · rw [hr] at hdocument
      cases hdocument
      rfl
  · refine ⟨v, settings, sc₃, hfiles₃.trans (hfiles₂.trans hfiles₁), ?_⟩
    rw [Fileless.files_bind, orEnd_apply, hout]
    · rfl
    · intro r
      split
      · exact .pure _
      · exact .pure _

theorem locate_runDirectory {st : Store} {artifacts : Path} {id stamp : String} {dir : Location}
    (hid : Path.IsName id) (hstamp : Path.IsName stamp)
    (h : st.locate (Layout.runDirectory artifacts id stamp) = .ok dir) :
    ∃ base, st.locate artifacts = .ok base ∧ dir = base ++ [id, stamp] := by
  obtain ⟨above, habove, -, rfl⟩ := Store.locate_join_name hstamp h
  obtain ⟨base, hbase, -, rfl⟩ := Store.locate_join_name hid habove
  exact ⟨base, hbase, by simp⟩

/-- The files of a run are in its directory, or directly in that of its screenshots. -/
theorem locate_runFile {st : Store} {artifacts : Path} {id stamp : String} {q : Path}
    {loc : Location} (hid : Path.IsName id) (hstamp : Path.IsName stamp)
    (hq : RunFile (Layout.runDirectory artifacts id stamp) q) (h : st.locate q = .ok loc) :
    ∃ base, st.locate artifacts = .ok base ∧
      ((∃ name ∈ Run.Player.ownNames, loc = base ++ [id, stamp, name]) ∨
        ∃ index name, loc = base ++ [id, stamp, "screens", Run.shotName index name]) := by
  rcases hq with ⟨name, hn, hq⟩ | ⟨index, name, hq⟩
  · rw [hq] at h
    obtain ⟨dir, hdir, -, hloc⟩ := Store.locate_join_name (Run.isName_ownName name hn) h
    obtain ⟨base, hbase, hbelow⟩ := locate_runDirectory hid hstamp hdir
    refine ⟨base, hbase, .inl ⟨name, hn, ?_⟩⟩
    rw [hloc, hbelow, List.append_assoc]
    rfl
  · rw [hq, Run.shotPath_eq] at h
    obtain ⟨screens, hscreens, -, hloc⟩ :=
      Store.locate_join_name (Run.isName_shotName index name) h
    obtain ⟨dir, hdir, -, hin⟩ := Store.locate_join_name Run.isName_screens hscreens
    obtain ⟨base, hbase, hbelow⟩ := locate_runDirectory hid hstamp hdir
    refine ⟨base, hbase, .inr ⟨index, name, ?_⟩⟩
    rw [hloc, hin, hbelow, List.append_assoc, List.append_assoc]
    rfl

/-- A command that runs a tour touches no files but those of the run, and none without a tour. -/
theorem outcome_run_touches (hs : s.session.Fileless) (hout : a.path? .output = none) :
    (outcome s .run a sc).2.files = sc.files ∨ ∃ document t,
      readJson sc.files a.file = .ok document ∧ Tour.ofJson document = .ok t ∧
        Store.Touches (Layout.runDirectory (layout s a).artifacts t.id s.stamp / "screens")
          (RunFile (Layout.runDirectory (layout s a).artifacts t.id s.stamp)) sc.files
          (outcome s .run a sc).2.files := by
  change (perform s .run a sc).2.files = sc.files ∨ ∃ document t,
    readJson sc.files a.file = .ok document ∧ Tour.ofJson document = .ok t ∧
      Store.Touches _ _ sc.files (perform s .run a sc).2.files
  cases hroot : a.lacksValue .root with
  | true =>
    obtain ⟨f, hf⟩ := perform_of_lacksValue s hroot .run sc
    rw [hf]
    exact .inl rfl
  | false =>
    rw [perform_run s hroot]
    obtain h | ⟨document, hdocument, v, settings, sc', hsc', h⟩ := run_files hout
    · exact .inl h
    have hsession : (execution s a v settings).session.Fileless := hs
    rw [h, ← hsc']
    obtain hsame | ⟨t, ht, htouches⟩ := Execution.execute_touches hsession document
      (Layout.runDirectory (layout s a).artifacts (runName document a.file) s.stamp) sc'
    · exact .inl hsame
    · rw [← hsc'] at hdocument
      rw [runName_of_ok ht] at htouches ⊢
      exact .inr ⟨document, t, hdocument, ht, htouches⟩

/-- A command that runs a tour in a browser's session and is given no directory writes in that of
the run only: either all files and directories stay as they were, or there is a tour whose id is a
name, and what has changed are files in the directory of that name and of the date and, for
screenshots, directly in its directory for these; and directories that were made on the way. A
screenshot's file is a name of one part, whatever the screenshot is called. -/
theorem run_confined (s : Surroundings ι σ) (b : Browser σ) (a : Arguments) (sc : Scene σ)
    (hout : a.path? .output = none) (hstamp : Path.IsName s.stamp) :
    let artifacts := (layout s a).artifacts
    let st := (outcome { s with session := b.session } .run a sc).2.files
    (st = sc.files ∨ ∃ document t, readJson sc.files a.file = .ok document ∧
      Tour.ofJson document = .ok t ∧ Path.IsName t.id ∧ t.id ≠ "." ∧
      ∀ loc, st.at? loc = sc.files.at? loc ∨
        (∃ base content, st.locate artifacts = .ok base ∧ st.at? loc = some (.file content) ∧
          ((∃ name ∈ Run.Player.ownNames, loc = base ++ [t.id, s.stamp, name]) ∨
            ∃ index name, loc = base ++ [t.id, s.stamp, "screens", Run.shotName index name])) ∨
        (sc.files.at? loc = none ∧ st.at? loc = some .directory ∧
          st.OnWay (Layout.runDirectory artifacts t.id s.stamp / "screens") loc)) ∧
    ∀ directory index name, Path.IsName (Run.shotName index name) ∧
      Run.shotPath directory index name = ⟨(directory / "screens").root,
        (directory / "screens").parts ++ [Run.shotName index name]⟩ := by
  intro artifacts st
  constructor
  case right =>
    intro directory index name
    exact ⟨Run.isName_shotName index name, Path.join_name _ _ (Run.ofString_shotName index name)⟩
  case left =>
    have hsession : { s with session := b.session }.session.Fileless := b.session_fileless
    obtain h | ⟨document, t, hdocument, ht, htouches⟩ := outcome_run_touches hsession hout
    · exact .inl h
    · have hname := Tour.isName_id ht
      refine .inr ⟨document, t, hdocument, ht, hname, hname.ne_self, fun loc => ?_⟩
      cases htouches.places loc with
      | same hsame => exact .inl hsame
      | file q content hq hl hcontent =>
        obtain ⟨base, hbase, hloc⟩ := locate_runFile hname hstamp hq hl
        exact .inr (.inl ⟨base, content, hbase, hcontent, hloc⟩)
      | made hway hno hmade => exact .inr (.inr ⟨hno, hmade, hway⟩)

/-- A screenshot that is called by a path upwards is kept where all of its run are. -/
theorem run_confined_upwards :
    let text := "\x7b\"tourId\": \"up\", \"steps\": [\x7b\"type\": \"say\", " ++
      "\"capture\": \x7b\"when\": \"before\", \"name\": \"../../up\"\x7d\x7d]\x7d"
    let file (text : String) : Entry := .file (Text.Utf8.encode text.toList)
    let files : Store := ⟨[(["up.json"], file text), (["tourkit"], .directory),
      (["tourkit", "config"], .directory),
      (["tourkit", "config", "routes.json"], file "\x7b\"routes\": []\x7d"),
      (["tourkit", "config", "events.json"], file "\x7b\"events\": []\x7d")]⟩
    let page : Page Int Unit := {
      answer := fun c s => (.ok (Page.plainAnswer c), s)
      clock := fun s => (.ok 0, s) }
    let b : Browser Unit := ⟨fun _ s => (.ok (), s)⟩
    let s : Surroundings Int Unit := {
      directory := ".", process := [], page := page, timing := .exact, session := b.session
      search := none, engine := none, date := "2026-01-01", stamp := "20260101T000000Z" }
    let a : Arguments := { operand := some "up.json" }
    let sc : Scene Unit := { page := (), files := files }
    let within := ["tourkit", "artifacts", "up", "20260101T000000Z"]
    a.path? .output = none ∧ Path.IsName s.stamp ∧
      ∃ done, outcome { s with session := b.session } .run a sc = done ∧
        done.1.ended.toOption = some 0 ∧
        done.2.files.at? (within ++ ["screens", Run.shotName 0 "../../up"]) = some (.file []) ∧
        ∀ loc content, done.2.files.at? loc = some (.file content) →
          files.at? loc = some (.file content) ∨ within <+: loc := by
  intro text file files page b s a sc within
  have hstamp : Path.IsName s.stamp := ⟨by decide, by decide⟩
  have hconfined := run_confined s b a sc rfl hstamp
  have hload : (Tour.load files a.file).toOption.map Tour.id = some "up" := by decide +kernel
  have hevaluated (d) (hd : d = outcome { s with session := b.session } .run a sc) :
      d.1.ended.toOption = some 0 ∧
        d.2.files.at? (within ++ ["screens", Run.shotName 0 "../../up"]) = some (.file []) ∧
        (d.2.files.locate (layout s a).artifacts).toOption = some ["tourkit", "artifacts"] := by
    subst hd
    decide +kernel
  obtain ⟨done, hdone⟩ : ∃ d, outcome { s with session := b.session } .run a sc = d := ⟨_, rfl⟩
  obtain ⟨hended, hshot, hbase⟩ := hevaluated done hdone.symm
  dsimp only at hconfined
  rw [hdone] at hconfined
  refine ⟨rfl, hstamp, done, hdone, hended, hshot, fun loc content hloc => ?_⟩
  obtain ⟨hsame | ⟨document, t, hdocument, ht, -, -, hplaces⟩, -⟩ := hconfined
  · left
    rw [← hloc, hsame]
  · have hid : t.id = "up" := by
      rw [Tour.load, hdocument, ok_bind, ht] at hload
      exact Option.some.inj hload
    obtain hsame | ⟨base, _, hlocated, -, hin⟩ | ⟨-, hmade, -⟩ := hplaces loc
    · exact .inl (hsame.symm.trans hloc)
    · right
      rw [hlocated] at hbase
      cases hbase
      obtain ⟨name, -, rfl⟩ | ⟨index, name, rfl⟩ := hin
      · rw [hid]
        exact ⟨[name], rfl⟩
      · rw [hid]
        exact ⟨["screens", Run.shotName index name], rfl⟩
    · rw [hloc] at hmade
      cases hmade

end CommandLine

end Walkthrough
