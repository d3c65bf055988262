import Walkthrough.Proofs.Run.Course
/-!
How a run begins and ends: its directory and its log are made before anything else, and what came
of its steps is written when they have ended.
-/

namespace Walkthrough.Run

open Text.Utf8 (encode)

variable {ι σ : Type}

/-- The state of a run that has not begun. -/
def State.fresh (tourId : String) (sc : Scene σ) : State σ :=
  { scene := sc, result := { tourId := tourId } }

namespace Player

variable (p : Player ι σ)

/-- What a run does before its steps: it makes its directory and its log. -/
def opening : Play Fault σ Unit := do
  onScene id (Act.file (Filing.makeDirectories (p.config.directory / "screens")))
  onScene id (Act.file (RunLog.start p.logFile))

/-- What a run does on the page. -/
def onPage (tourId : String) (cues : List Cue) : Play Fault σ Unit := do
  onScene id (Act.ask p.page .addInitScript)
  p.playCues tourId 0 cues

theorem play_eq (tourId : String) (cues : List Cue) : p.play tourId cues = (do
    p.opening
    Attempt.thenAlways (do
      note s!"Tour {tourId} started ({cues.length} steps)"
      Attempt.thenAlways (p.onPage tourId cues) p.finish) p.writeNotes) := by
  unfold play opening
  rw [bind_assoc]
  rfl

/-- The state in which a run turns to the page. -/
def noteStart (tourId : String) (cues : List Cue) (st : State σ) : State σ :=
  { st with notes := st.notes ++ [s!"Tour {tourId} started ({cues.length} steps)"] }

theorem run_eq_ok {t : Tour} {sc : Scene σ} {r : Result} (h : (p.run t sc).1 = .ok r) :
    (p.play t.id t.cues (.fresh t.id sc)).1 = .ok () ∧
      r = (p.play t.id t.cues (.fresh t.id sc)).2.result := by
  change (p.play t.id t.cues (.fresh t.id sc)).1.map (fun _ => _) = _ at h
  cases hp : (p.play t.id t.cues (.fresh t.id sc)).1 with
  | error f => rw [hp] at h; cases h
  | ok x => rw [hp] at h; cases h; exact ⟨rfl, rfl⟩

theorem finish_apply (s : State σ) : p.finish s =
    match s.result.write p.config.date p.config.directory s.scene.files with
    | (.ok (), fs) => (.ok (), { s with
        scene := { s.scene with files := fs }
        notes := s.notes ++ [s!"Tour {s.result.tourId} finished: {s.result.verdict}"] })
    | (.error f, fs) => (.error f, { s with scene := { s.scene with files := fs } }) := by
  change (onScene id (Act.file (s.result.write p.config.date p.config.directory)) >>=
    fun _ => note s!"Tour {s.result.tourId} finished: {s.result.verdict}" : Play Fault σ Unit) s = _
  rw [Attempt.bind_apply]
  unfold onScene Act.file
  rw [Attempt.focus_apply, Attempt.focus_apply]
  rcases s.result.write p.config.date p.config.directory s.scene.files with ⟨e | x, fs⟩ <;> rfl

theorem writeNotes_apply (s : State σ) : p.writeNotes s =
    ((s.notes.forM (RunLog.append p.logFile p.config.date) s.scene.files).1,
      { s with scene := { s.scene with
        files := (s.notes.forM (RunLog.append p.logFile p.config.date) s.scene.files).2 } }) := by
  change (onScene id (Act.file (s.notes.forM (RunLog.append p.logFile p.config.date))) :
    Play Fault σ Unit) s = _
  unfold onScene Act.file
  rw [Attempt.focus_apply, Attempt.focus_apply]
  rcases s.notes.forM (RunLog.append p.logFile p.config.date) s.scene.files with ⟨e | x, fs⟩ <;> rfl

section

variable {p} {tourId : String} {cues : List Cue} {st st₀ s : State σ} {x : Except Fault Unit}

/-- A run ends in what is left when its notes are written after its result; if both can be written,
it ends as its steps do, and well only if they do. -/
theorem play_ending (ho : p.opening st = (.ok (), st₀))
    (hp : p.onPage tourId cues (noteStart tourId cues st₀) = (x, s)) :
    (p.play tourId cues st).2 = (p.writeNotes (p.finish s).2).2 ∧
      ((p.finish s).1 = .ok () → (p.writeNotes (p.finish s).2).1 = .ok () →
        (p.play tourId cues st).1 = x) ∧
      ((p.play tourId cues st).1 = .ok () → x = .ok ()) := by
  rw [play_eq, Attempt.bind_ok ho, Attempt.thenAlways_apply]
  have hn : (note s!"Tour {tourId} started ({cues.length} steps)" : Play Fault σ Unit) st₀ =
    (.ok (), noteStart tourId cues st₀) := rfl
  rw [Attempt.bind_ok hn, Attempt.thenAlways_apply, hp]
  rcases p.finish s with ⟨f | ⟨⟩, s'⟩
  · rcases p.writeNotes s' with ⟨f' | ⟨⟩, s''⟩ <;> simp
  · rcases p.writeNotes s' with ⟨f' | ⟨⟩, s''⟩ <;> simp

theorem finish_frame (s : State σ) :
    (p.finish s).2.result = s.result ∧ (p.finish s).2.scene.page = s.scene.page := by
  rw [finish_apply]
  rcases s.result.write p.config.date p.config.directory s.scene.files with ⟨e | x, fs⟩ <;>
    exact ⟨rfl, rfl⟩

theorem play_frame (ho : p.opening st = (.ok (), st₀))
    (hp : p.onPage tourId cues (noteStart tourId cues st₀) = (x, s)) :
    (p.play tourId cues st).2.result = s.result ∧
      (p.play tourId cues st).2.scene.page = s.scene.page := by
  rw [(play_ending ho hp).1, writeNotes_apply]
  exact finish_frame s

/-- What the file of a run's result holds when the result has been written. -/
def resultBytes (r : Result) : Text.Utf8.Bytes :=
  encode ((r.toJson p.config.date).pretty ++ "\n").toList

/-- Writing the notes leaves files of other names than the log's as they were. -/
theorem writeNotes_read {name : String} (hn : Path.ofString name = ⟨"", [name]⟩)
    (hdots : name ≠ "..") (hne : name ≠ "runlog.txt") {bytes : Text.Utf8.Bytes} (s : State σ)
    (hr : s.scene.files.read (p.config.directory / name) = .ok bytes) :
    (p.writeNotes s).2.scene.files.read (p.config.directory / name) = .ok bytes := by
  have hlog : p.logFile.parts.getLast? = some "runlog.txt" :=
    Path.getLast?_join_name _ _ (by decide +kernel)
  have hkeep (line : String) (fs : Store)
      (hr : fs.read (p.config.directory / name) = .ok bytes) :
      (RunLog.append p.logFile p.config.date line fs).2.read (p.config.directory / name) =
        .ok bytes :=
    Filing.append_read_of_ne hlog (by decide) (Path.getLast?_join_name _ _ hn) hdots hne _ hr
  rw [writeNotes_apply]
  exact Attempt.forM_keeps hkeep _ _ hr

/-- The result of a run that can be written is in its file when all is done. -/
theorem read_result (ho : p.opening st = (.ok (), st₀))
    (hp : p.onPage tourId cues (noteStart tourId cues st₀) = (x, s))
    (hf : (p.finish s).1 = .ok ()) :
    (p.play tourId cues st).2.scene.files.read (p.config.directory / "result.json") =
      .ok (p.resultBytes s.result) := by
  rw [(play_ending ho hp).1]
  refine writeNotes_read (by decide +kernel) (by decide) (by decide) _ ?_
  rw [finish_apply] at hf ⊢
  rcases hr : s.result.write p.config.date p.config.directory s.scene.files with ⟨e | ⟨⟩, fs⟩
  · rw [hr] at hf
    cases hf
  · obtain ⟨-, _, -, hr⟩ := Attempt.bind_eq_ok.mp hr
    obtain ⟨-, _, -, hr⟩ := Attempt.bind_eq_ok.mp hr
    exact Filing.writeText_read hr

end

/-- The names of the files that a run may write in its directory. -/
def ownNames : List String :=
  ["transcript.json", "transcript.md", "screens.json", "result.json", "runlog.txt",
    "annotations.jsonl"]

theorem ofString_ownName : ∀ name ∈ ownNames, Path.ofString name = ⟨"", [name]⟩ := by
  decide +kernel

section

variable {p} {files : Path → Prop} {fs : Store}

/-- Of the files of a run one is read as some bytes, the others as before. -/
structure Replaces (directory : Path) (name : String) (content : Text.Utf8.Bytes)
    (fs fs' : Store) : Prop where
  own : fs'.read (directory / name) = .ok content
  others : ∀ other ∈ ownNames, other ≠ name →
    fs'.read (directory / other) = fs.read (directory / other)

theorem replaces_of_gains {directory : Path} {fs' : Store} {content : Text.Utf8.Bytes}
    (h : Ready directory files fs) (hf : ∀ name ∈ ownNames, files (directory / name))
    {name : String} (hn : name ∈ ownNames) (hg : fs.Gains (directory / name) content fs') :
    Replaces directory name content fs fs' := by
  refine ⟨hg.read, fun other ho hne => ?_⟩
  have hlast (name : String) (hn : name ∈ ownNames) :
      (directory / name).parts.getLast? = some name ∧ name ≠ ".." := by
    refine ⟨Path.getLast?_join_name _ _ (ofString_ownName name hn), ?_⟩
    rintro rfl
    exact absurd hn (by decide)
  obtain ⟨loc, hl, -⟩ := h.writable _ (hf other ho)
  exact hg.read_eq_of_ne (hlast name hn).1 (hlast name hn).2 (hlast other ho).1 (hlast other ho).2
    hne hl

theorem writeText_of_ready (h : Ready p.config.directory files fs)
    (hf : ∀ name ∈ ownNames, files (p.config.directory / name)) (name : String)
    (hn : name ∈ ownNames) (text : String) :
    ∃ fs', Filing.writeText (p.config.directory / name) text fs = (.ok (), fs') ∧
      Ready p.config.directory files fs' ∧
      Replaces p.config.directory name (encode text.toList) fs fs' := by
  have hparent : (p.config.directory / name).parent = p.config.directory :=
    Path.parent_join_name _ _ (ofString_ownName name hn)
  obtain ⟨fs', hw, hg⟩ := Filing.writeText_of_writable (by rw [hparent]; exact h.directory)
    (h.writable _ (hf name hn)) text
  exact ⟨fs', hw, h.of_sameDirectories hg.sameDirectories, replaces_of_gains h hf hn hg⟩

/-- The files of a result have been written; the log and the queue are left as they were. -/
structure Written (p : Player ι σ) (r : Result) (fs fs' : Store) : Prop where
  transcript : fs'.read (p.config.directory / "transcript.json") =
    .ok (encode ((Spoken.listJson r.transcript).pretty ++ "\n").toList)
  shots : fs'.read (p.config.directory / "screens.json") =
    .ok (encode ((Shot.listJson r.shots).pretty ++ "\n").toList)
  result : fs'.read (p.config.directory / "result.json") = .ok (p.resultBytes r)
  log : fs'.read (p.config.directory / "runlog.txt") = fs.read (p.config.directory / "runlog.txt")
  queue : fs'.read (p.config.directory / "annotations.jsonl") =
    fs.read (p.config.directory / "annotations.jsonl")

/-- A result can be written where the files of the run can. -/
theorem write_of_ready (h : Ready p.config.directory files fs)
    (hf : ∀ name ∈ ownNames, files (p.config.directory / name)) (r : Result) :
    ∃ fs', r.write p.config.date p.config.directory fs = (.ok (), fs') ∧
      Ready p.config.directory files fs' ∧ Written p r fs fs' := by
  obtain ⟨fs₁, h₁, hr, g₁⟩ := writeText_of_ready h hf "transcript.json" (by decide)
    ((Spoken.listJson r.transcript).pretty ++ "\n")
  obtain ⟨fs₂, h₂, hr, g₂⟩ := writeText_of_ready hr hf "transcript.md" (by decide)
    (Spoken.script r.tourId r.transcript)
  obtain ⟨fs₃, h₃, hr, g₃⟩ := writeText_of_ready hr hf "screens.json" (by decide)
    ((Shot.listJson r.shots).pretty ++ "\n")
  obtain ⟨fs₄, h₄, hr, g₄⟩ := writeText_of_ready hr hf "result.json" (by decide)
    ((r.toJson p.config.date).pretty ++ "\n")
  refine ⟨fs₄, ?_, hr, ?_⟩
  · have ht : Spoken.write r.tourId r.transcript p.config.directory fs = (.ok (), fs₂) := by
      unfold Spoken.write
      rw [Attempt.bind_ok h₁, h₂]
    have hs : Shot.write r.shots (p.config.directory / "screens.json") fs₂ = (.ok (), fs₃) := h₃
    unfold Result.write
    rw [Attempt.bind_ok ht, Attempt.bind_ok hs, h₄]
  · -- each file was written once and is not touched when the others are
    have hkeep (name : String) (hn : name ∈ ownNames) (h₁ : name ≠ "transcript.json")
        (h₂ : name ≠ "transcript.md") (h₃ : name ≠ "screens.json") (h₄ : name ≠ "result.json") :
        fs₄.read (p.config.directory / name) = fs.read (p.config.directory / name) := by
      rw [g₄.others name hn h₄, g₃.others name hn h₃, g₂.others name hn h₂, g₁.others name hn h₁]
    constructor
    case transcript =>
      rw [g₄.others _ (by decide) (by decide), g₃.others _ (by decide) (by decide),
        g₂.others _ (by decide) (by decide), g₁.own]
    case shots => rw [g₄.others _ (by decide) (by decide), g₃.own]
    case result => exact g₄.own
    case log => exact hkeep _ (by decide) (by decide) (by decide) (by decide) (by decide)
    case queue => exact hkeep _ (by decide) (by decide) (by decide) (by decide) (by decide)

theorem finish_of_ready {s : State σ} (h : Ready p.config.directory files s.scene.files)
    (hf : ∀ name ∈ ownNames, files (p.config.directory / name)) :
    (p.finish s).1 = .ok () ∧ Ready p.config.directory files (p.finish s).2.scene.files ∧
      Written p s.result s.scene.files (p.finish s).2.scene.files := by
  obtain ⟨fs, hw, hr, hwritten⟩ := write_of_ready h hf s.result
  rw [finish_apply, hw]
  exact ⟨rfl, hr, hwritten⟩

/-- The lines of a log behind one another. -/
def logText (date : String) (lines : List String) : List Char :=
  lines.flatMap fun line => (date ++ " " ++ line ++ "\n").toList

/-- Lines can be added to the log where the files of the run can be written; the other files are
left as they were. -/
theorem append_log_of_ready (hf : ∀ name ∈ ownNames, files (p.config.directory / name))
    (lines : List String) (h : Ready p.config.directory files fs) :
    ∃ fs', lines.forM (RunLog.append p.logFile p.config.date) fs = (.ok (), fs') ∧
      (∀ other ∈ ownNames, other ≠ "runlog.txt" →
        fs'.read (p.config.directory / other) = fs.read (p.config.directory / other)) ∧
      fs'.read p.logFile = if lines = [] then fs.read p.logFile else
        .ok ((fs.read p.logFile).toOption.getD [] ++ encode (logText p.config.date lines)) := by
  induction lines generalizing fs with
  | nil => exact ⟨fs, rfl, fun _ _ _ => rfl, rfl⟩
  | cons line lines ih =>
    have hn : "runlog.txt" ∈ ownNames := by decide
    obtain ⟨fs₁, ha, hs, hread⟩ := Filing.append_read_of_writable
      (h.writable p.logFile (hf _ hn)) (encode (p.config.date ++ " " ++ line ++ "\n").toList)
    obtain ⟨_, hg⟩ := Filing.append_gains ha
    have hr := replaces_of_gains h hf hn hg
    obtain ⟨fs', hfs, hothers, hlog⟩ := ih (h.of_sameDirectories hs)
    refine ⟨fs', ?_, fun other ho hne => (hothers other ho hne).trans (hr.others other ho hne), ?_⟩
    · exact (Attempt.bind_ok ha _).trans hfs
    · rw [hlog, hread, if_neg (List.cons_ne_nil line lines)]
      by_cases hl : lines = []
      · rw [if_pos hl, hl]
        simp [logText]
      · have htext : logText p.config.date (line :: lines) =
            (p.config.date ++ " " ++ line ++ "\n").toList ++ logText p.config.date lines :=
          List.flatMap_cons
        rw [if_neg hl, htext, Text.Utf8.encode_append, ← List.append_assoc]
        rfl

/-- A run whose files can be written ends as its steps do. -/
theorem play_of_ready {tourId : String} {cues : List Cue} {st st₀ s : State σ}
    {x : Except Fault Unit} (ho : p.opening st = (.ok (), st₀))
    (hp : p.onPage tourId cues (noteStart tourId cues st₀) = (x, s))
    (h : Ready p.config.directory files s.scene.files)
    (hf : ∀ name ∈ ownNames, files (p.config.directory / name)) :
    (p.play tourId cues st).1 = x := by
  obtain ⟨hfin, hr, -⟩ := finish_of_ready h hf
  obtain ⟨fs, ha, -⟩ := append_log_of_ready hf (p.finish s).2.notes hr
  refine (play_ending ho hp).2.1 hfin ?_
  rw [writeNotes_apply, ha]

end

/-- The steps of a run begin in a state: its directory and its log have been made, and the page has
taken the script that it is given first. -/
def Begins (t : Tour) (sc : Scene σ) (st : State σ) : Prop :=
  ∃ st₀, p.opening (.fresh t.id sc) = (.ok (), st₀) ∧
    (onScene id (Act.ask p.page .addInitScript) : Play Fault σ Unit) (noteStart t.id t.cues st₀) =
      (.ok (), st)

section

variable {p}

theorem opening_frame (st : State σ) :
    (p.opening st).2.scene.page = st.scene.page ∧ (p.opening st).2.result = st.result :=
  Attempt.bind_keeps (I := fun s : State σ => s.scene.page = st.scene.page ∧ s.result = st.result)
    (fun _ h => h) (fun _ _ h => h) st ⟨rfl, rfl⟩

theorem initScript_apply (s : State σ) :
    (onScene id (Act.ask p.page .addInitScript) : Play Fault σ Unit) s =
      ((p.page.answer .addInitScript s.scene.page).1, { s with scene := { s.scene with
        page := (p.page.answer .addInitScript s.scene.page).2 } }) := by
  unfold onScene Act.ask
  rw [Attempt.focus_apply]
  rcases p.page.answer .addInitScript s.scene.page with ⟨e | x, s'⟩ <;> rfl

theorem Begins.state {t : Tour} {sc : Scene σ} {st : State σ} (h : p.Begins t sc st) :
    (p.page.answer .addInitScript sc.page).1 = .ok () ∧
      st.scene.page = (p.page.answer .addInitScript sc.page).2 ∧
      st.result = { tourId := t.id } := by
  obtain ⟨st₀, ho, ha⟩ := h
  obtain ⟨hp, hr⟩ := opening_frame (p := p) (.fresh t.id sc)
  rw [ho] at hp hr
  have hpage : (noteStart t.id t.cues st₀).scene.page = sc.page := hp
  rw [initScript_apply, Prod.mk.injEq, hpage] at ha
  rw [← ha.2]
  exact ⟨ha.1, rfl, hr⟩

/-- Behind the opening, what becomes of a run hangs on whether the page takes its script. -/
theorem onPage_cases {t : Tour} {sc : Scene σ} {st₀ : State σ}
    (ho : p.opening (.fresh t.id sc) = (.ok (), st₀)) :
    (∃ f, (p.page.answer .addInitScript sc.page).1 = .error f ∧
      (p.onPage t.id t.cues (noteStart t.id t.cues st₀)).1 = .error f ∧
      (p.onPage t.id t.cues (noteStart t.id t.cues st₀)).2.result = { tourId := t.id }) ∨
    ∃ st, p.Begins t sc st ∧
      p.onPage t.id t.cues (noteStart t.id t.cues st₀) = p.playCues t.id 0 t.cues st := by
  obtain ⟨hp, hr⟩ := opening_frame (p := p) (.fresh t.id sc)
  rw [ho] at hp hr
  have hpage : (noteStart t.id t.cues st₀).scene.page = sc.page := hp
  have ha := initScript_apply (p := p) (noteStart t.id t.cues st₀)
  rw [hpage] at ha
  rcases hx : (p.page.answer .addInitScript sc.page).1 with f | ⟨⟩
  · left
    rw [hx] at ha
    refine ⟨f, rfl, ?_⟩
    unfold onPage
    rw [Attempt.bind_error ha]
    exact ⟨rfl, hr⟩
  · right
    rw [hx] at ha
    exact ⟨_, ⟨st₀, ho, ha⟩, Attempt.bind_ok ha _⟩

/-- The failure in a run's result is that of one of its steps. -/
theorem play_failure {t : Tour} {sc : Scene σ} {f : Failure}
    (hf : (p.play t.id t.cues (.fresh t.id sc)).2.result.failure = some f) :
    ∃ c, t.cues[f.step]? = some c ∧ (f.kind = .configuration → Unset p.config c) := by
  have hframe := (opening_frame (p := p) (.fresh t.id sc)).2
  rcases ho : p.opening (.fresh t.id sc) with ⟨e | ⟨⟩, st₀⟩
  · rw [ho] at hframe
    rw [play_eq, Attempt.bind_error ho, hframe] at hf
    cases hf
  · rw [(play_frame ho (Prod.eta _).symm).1] at hf
    obtain ⟨g, -, -, hr⟩ | ⟨st, hb, he⟩ := onPage_cases ho
    · rw [hr] at hf
      cases hf
    · rw [he] at hf
      rcases playCues_failure hf with hf | ⟨i, c, hc, hs, hu⟩
      · rw [hb.state.2.2] at hf
        cases hf
      · rw [Nat.zero_add] at hs
        exact ⟨c, by rw [hs]; exact hc, hu⟩

end

end Player

end Walkthrough.Run
