import Walkthrough.Proofs.Except
import Walkthrough.Proofs.Json.Real
import Walkthrough.Proofs.Run.Inventory
/-!
What a run leaves behind: its files are read back as what came of the run, and agree with each
other, however the run ends.
-/

namespace Walkthrough

open Json (ReadsBack)
open Text.Utf8 (encode)

namespace Job.Typed

variable {j : Job}

theorem plain {room : Nat} (h : j.Typed) : j.toJson.Plain (room + 1) := by
  obtain ⟨s, hs⟩ := h.screenshot
  obtain ⟨i, hi⟩ := h.instructions
  simp [toJson, Json.PlainMembers, Json.int, h.step, hs, hi]

/-- A job is written on one line. -/
theorem not_mem_compact (h : j.Typed) {c : Char} (hc : c.toNat < 0x20) :
    c ∉ j.toJson.compact.toList := by
  obtain ⟨s, hs⟩ := h.screenshot
  obtain ⟨i, hi⟩ := h.instructions
  have hn {d : Char} (hd : ¬d.toNat < 0x20) : c ≠ d := by
    rintro rfl
    exact hd hc
  simp [toJson, Json.compact, Json.write, Json.writeMembers, Json.Style.deeper, Json.Style.lead,
    Json.Style.between, Json.int, hs, hi, Json.not_mem_writeText hc, Json.not_mem_writeNumber hc,
    hn (d := '\x7b') (by decide), hn (d := '\x7d') (by decide), hn (d := ',') (by decide),
    hn (d := ' ') (by decide), hn (d := ':') (by decide)]

end Job.Typed

/-- The lines of queued jobs are what stands between the line feeds. -/
theorem pieces_queue {jobs : List Job} (h : ∀ j ∈ jobs, j.Typed) :
    (String.ofList (jobs.flatMap (·.line.toList))).pieces '\n' =
      jobs.map (·.toJson.compact) ++ [""] := by
  rw [String.pieces, String.toList_ofList]
  induction jobs with
  | nil => rfl
  | cons j jobs ih =>
    have hj := (h j List.mem_cons_self).not_mem_compact (c := '\n') (by decide)
    have hline : j.line.toList = j.toJson.compact.toList ++ ['\n'] := String.toList_append
    rw [List.flatMap_cons, hline, List.append_assoc, List.singleton_append,
      Text.pieces_append_cons hj, List.map_cons, String.ofList_toList,
      ih fun k hk => h k (List.mem_cons_of_mem j hk), List.map_cons, List.cons_append]

theorem not_mem_queue {jobs : List Job} (h : ∀ j ∈ jobs, j.Typed) :
    '\r' ∉ jobs.flatMap (·.line.toList) := by
  intro hm
  obtain ⟨j, hj, hm⟩ := List.mem_flatMap.mp hm
  rw [Job.line, String.toList_append, List.mem_append] at hm
  rcases hm with hm | hm
  · exact (h j hj).not_mem_compact (by decide) hm
  · exact absurd hm (by decide)

/-- A file has a line for each of some jobs, which is read as that job; without jobs there is no
file. -/
def HoldsJobs (fs : Store) (file : Path) (jobs : List Job) : Prop :=
  if jobs = [] then fs.read file = .error ⟨.absent, file⟩
  else ∃ text lines, readText fs file = .ok text ∧ text.pieces '\n' = lines ++ [""] ∧
    lines.map Json.read = jobs.map fun j => .ok j.toJson

theorem holdsJobs_of_queued {fs : Store} {file : Path} {jobs : List Job}
    (h : ∀ j ∈ jobs, j.Typed) (hq : fs.read file = queued file jobs) :
    HoldsJobs fs file jobs := by
  unfold HoldsJobs
  unfold queued at hq
  split_ifs with hj
  · rwa [if_pos hj] at hq
  · rw [if_neg hj] at hq
    have htext : readText fs file = .ok (String.ofList (jobs.flatMap (·.line.toList))) := by
      apply readText_of_read
      · rw [String.toList_ofList]
        exact not_mem_queue h
      · rw [String.toList_ofList]
        exact hq
    refine ⟨_, jobs.map (·.toJson.compact), htext, pieces_queue h, ?_⟩
    rw [List.map_map]
    refine List.map_congr_left fun j hj => ?_
    rw [Function.comp_apply, Json.read_compact (h j hj).plain]

theorem readJson_of_read {fs : Store} {file : Path} {v : Json} (pv : v.Plain Json.roomAlways)
    (h : fs.read file = .ok (encode (v.pretty ++ "\n").toList)) : readJson fs file = .ok v := by
  rw [readJson, readText_of_read (Json.not_mem_pretty pv) h, ok_bind, Json.read_pretty pv]
  rfl

namespace Run

variable {ι σ : Type}

namespace Player

/-- The last line of a log stands behind a line feed if another line comes before it. -/
theorem logText_concat (date : String) {lines : List String} (h : lines ≠ []) (last : String) :
    ∃ before, logText date (lines ++ [last]) =
      before ++ ("\n" ++ date ++ " " ++ last ++ "\n").toList := by
  obtain ⟨first, line, rfl⟩ := (List.eq_nil_or_concat lines).resolve_left h
  refine ⟨logText date first ++ (date ++ " " ++ line).toList, ?_⟩
  simp [logText, String.toList_append]

variable {p : Player ι σ}

theorem Inventory.plain_toJson {n : Nat} {fs : Store} {r : Result} (h : p.Inventory n fs r)
    (hn : n < 2 ^ 64) (date : String) (room : Nat) : (r.toJson date).Plain (room + 3) := by
  have hcount : ReadsBack (.int r.jobs.length) := Json.readsBack_natCast (h.count.trans_lt hn)
  have hfailure : ((r.failure.map Failure.toJson).getD .null).Plain (room + 2) := by
    cases hf : r.failure with
    | none => trivial
    | some f => exact h.failure f hf (room + 1)
  have hrecords : Json.PlainItems (room + 1) (r.records.map Record.toJson) :=
    Json.plainItems_iff.mpr fun v hv => by
      obtain ⟨x, hx, rfl⟩ := List.mem_map.mp hv
      exact h.records x hx room
  have hshots : (Json.strs (r.shots.map (·.path))).Plain (room + 2) :=
    Json.plain_arr.mpr <| Json.plainItems_iff.mpr fun v hv => by
      obtain ⟨s, -, rfl⟩ := List.mem_map.mp hv
      exact Json.plain_str s
  refine ⟨by simp, ?_⟩
  exact ⟨Json.plain_str _, Json.plain_str _, Json.plain_str _, Json.plain_str _, hrecords, hfailure,
    hshots, hcount, trivial⟩

theorem notes_of_finish {s : State σ} (h : (p.finish s).1 = .ok ()) :
    (p.finish s).2.notes =
      s.notes ++ [s!"Tour {s.result.tourId} finished: {s.result.verdict}"] := by
  rw [finish_apply] at h ⊢
  rcases hw : s.result.write p.config.date p.config.directory s.scene.files with ⟨e | ⟨⟩, fs⟩
  · rw [hw] at h
    cases h
  · rfl

/-- What is at hand when the steps have ended is in the files when all is done. -/
theorem read_ending {n : Nat} {s : State σ} (h : p.Inventory n s.scene.files s.result)
    (hn : n < 2 ^ 64) :
    let r := s.result
    let fs := (p.writeNotes (p.finish s).2).2.scene.files
    (p.finish s).1 = .ok () ∧ (p.writeNotes (p.finish s).2).1 = .ok () ∧
    readJson fs (p.config.directory / "transcript.json") = .ok (Spoken.listJson r.transcript) ∧
    readJson fs (p.config.directory / "screens.json") = .ok (Shot.listJson r.shots) ∧
    readJson fs (p.config.directory / "result.json") = .ok (r.toJson p.config.date) ∧
    HoldsJobs fs p.queueFile r.jobs ∧
    ∃ old, fs.read p.logFile = .ok (old ++ encode (logText p.config.date
      (s.notes ++ [s!"Tour {r.tourId} finished: {r.verdict}"]))) := by
  intro r fs
  have hown : ∀ name ∈ ownNames, p.config.directory / name ∈ p.ownFiles := fun _ hn =>
    p.own_mem_ownFiles hn
  obtain ⟨hfin, hready, hw⟩ := finish_of_ready h.ready hown
  obtain ⟨fs', ha, hothers, hlog⟩ := append_log_of_ready hown (p.finish s).2.notes hready
  have hfs : p.writeNotes (p.finish s).2 = (.ok (), { (p.finish s).2 with
      scene := { (p.finish s).2.scene with files := fs' } }) := by
    rw [writeNotes_apply, ha]
  have hfs' : fs = fs' := by
    change (p.writeNotes (p.finish s).2).2.scene.files = fs'
    rw [hfs]
  rw [hfs', hfs]
  refine ⟨hfin, rfl, readJson_of_read (Spoken.plain_listJson h.transcript) ?_,
    readJson_of_read (Shot.plain_listJson h.shots) ?_,
    readJson_of_read (h.plain_toJson hn _ _) ?_, holdsJobs_of_queued h.jobs ?_, ?_⟩
  · rw [hothers _ (by decide) (by decide), hw.transcript]
  · rw [hothers _ (by decide) (by decide), hw.shots]
  · rw [hothers _ (by decide) (by decide), hw.result]
    rfl
  · rw [queueFile, hothers _ (by decide) (by decide), hw.queue]
    exact h.queue
  · rw [hlog, notes_of_finish hfin, if_neg (by simp)]
    exact ⟨_, rfl⟩

theorem Begins.notes_ne_nil {t : Tour} {sc : Scene σ} {st : State σ} (h : p.Begins t sc st) :
    st.notes ≠ [] := by
  obtain ⟨st₀, -, hs⟩ := h
  rw [initScript_apply, Prod.mk.injEq] at hs
  rw [← hs.2]
  simp [noteStart]

theorem Begins.inventory {t : Tour} {sc : Scene σ} {st : State σ} (h : p.Begins t sc st)
    (hr : Ready p.config.directory (· ∈ p.ownFiles) st.scene.files)
    (hq : st.scene.files.read p.queueFile = .error ⟨.absent, p.queueFile⟩) :
    p.Inventory 0 st.scene.files st.result := by
  rw [h.state.2.2]
  exact {
    ready := hr
    queue := hq
    transcript := by simp
    shots := by simp
    jobs := by simp
    count := Nat.le_refl 0
    records := by simp
    failure := by simp }

/-- A result names the paths of its screenshots in their order. -/
theorem get?_screenshots (date : String) (r : Result) :
    ∃ shots, Shot.listJson r.shots = .arr shots ∧
      (r.toJson date).get? "screenshots" =
        (shots.mapM fun s : Json => s.get? "path").map .arr := by
  refine ⟨_, rfl, ?_⟩
  have hpaths (shots : List Shot) : (shots.map fun s : Shot => Json.obj [("name", .str s.name),
      ("path", .str s.path), ("step_index", .int s.step), ("full_page", s.fullPage)]).mapM
        (fun s : Json => s.get? "path") = some (shots.map fun s => .str s.path) := by
    induction shots with
    | nil => rfl
    | cons s shots ih =>
      rw [List.map_cons, List.mapM_cons, ih]
      rfl
  rw [hpaths]
  change some (Json.strs (r.shots.map (·.path))) = _
  rw [Json.strs, List.map_map]
  rfl

theorem verdict_eq_fail_iff (date : String) (r : Result) :
    r.verdict = "fail" ↔ ∃ failure, (r.toJson date).get? "failure" = some (.obj failure) := by
  have hf : (r.toJson date).get? "failure" =
    some ((r.failure.map Failure.toJson).getD .null) := rfl
  rw [hf]
  unfold Result.verdict Result.passed
  cases r.failure with
  | none => simp
  | some f => simp [Failure.toJson]

/-- A run that came to its steps ends as its notes and its result are written, with what the steps
left at hand. -/
theorem Begins.ending {p : Player Binary64 σ} {t : Tour} {sc : Scene σ} {st : State σ}
    (hp : p.timing = .seconds) (hb : p.Begins t sc st)
    (hr : Ready p.config.directory (· ∈ p.ownFiles) st.scene.files)
    (hq : st.scene.files.read p.queueFile = .error ⟨.absent, p.queueFile⟩)
    (hl : t.steps.length < 2 ^ 63) :
    ∃ s : State σ, (p.play t.id t.cues (.fresh t.id sc)).2.result = s.result ∧
      (p.run t sc).2.files = (p.writeNotes (p.finish s).2).2.scene.files ∧ s.notes ≠ [] ∧
      p.Inventory (2 * t.steps.length) s.scene.files s.result := by
  have he (start t : Binary64) : ReadsBack (p.timing.elapsed start t) := by
    rw [hp]
    exact Json.readsBack_elapsed start t
  obtain ⟨st₀, ho, hs⟩ := id hb
  have hon : p.onPage t.id t.cues (noteStart t.id t.cues st₀) = p.playCues t.id 0 t.cues st :=
    Attempt.bind_ok hs _
  obtain ⟨hnotes, hinv⟩ := playCues_leaves (n := 0) (k := 0) he t.id t.steps
    (fun i hi => Json.readsBack_natCast (by omega)) st
  rw [← Tour.cues] at hnotes hinv
  have hinv := hinv (hb.inventory hr hq)
  generalize p.playCues t.id 0 t.cues st = e at hon hnotes hinv
  obtain ⟨x, s⟩ := e
  obtain ⟨hend, -⟩ := play_ending ho hon
  obtain ⟨hresult, -⟩ := play_frame ho hon
  refine ⟨s, hresult, ?_, fun h => ?_, by simpa using hinv⟩
  · rw [← hend]
    rfl
  · exact hb.notes_ne_nil (List.prefix_nil.mp (h ▸ hnotes))

/-- Where its files can be written, a run that came to its steps leaves files that hold what came of
it and agree with each other, whether it ends well or with a fault. -/
theorem run_artifacts {p : Player Binary64 σ} {t : Tour} {sc : Scene σ} {st : State σ}
    (hp : p.timing = .seconds) (hb : p.Begins t sc st)
    (hr : Ready p.config.directory (· ∈ p.ownFiles) st.scene.files)
    (hq : st.scene.files.read p.queueFile = .error ⟨.absent, p.queueFile⟩)
    (hl : t.steps.length < 2 ^ 63) :
    let r := (p.play t.id t.cues (.fresh t.id sc)).2.result
    let fs := (p.run t sc).2.files
    let directory := p.config.directory
    (∀ r', (p.run t sc).1 = .ok r' → r' = r) ∧ ∃ shots result,
      readJson fs (directory / "transcript.json") = .ok (Spoken.listJson r.transcript) ∧
      readJson fs (directory / "screens.json") = .ok (.arr shots) ∧
      Shot.listJson r.shots = .arr shots ∧
      readJson fs (directory / "result.json") = .ok result ∧
      result.get? "screenshots" = (shots.mapM fun s : Json => s.get? "path").map .arr ∧
      result.get? "steps" = some (.arr (r.records.map Record.toJson)) ∧
      result.get? "annotations" = some (.int r.jobs.length) ∧
      HoldsJobs fs p.queueFile r.jobs ∧
      ∃ verdict before, result.get? "verdict" = some (.str verdict) ∧
        (verdict = "fail" ↔ ∃ failure, result.get? "failure" = some (.obj failure)) ∧
        fs.read p.logFile = .ok (before ++ encode ("\n" ++ p.config.date ++ " " ++
          s!"Tour {r.tourId} finished: {verdict}" ++ "\n").toList) := by
  intro r fs directory
  refine ⟨fun r' h => (p.run_eq_ok h).2, ?_⟩
  obtain ⟨s, hresult, hfiles, hnotes, hinv⟩ := hb.ending hp hr hq hl
  have hrs : r = s.result := hresult
  obtain ⟨-, -, htranscript, hshots, hdocument, hjobs, old, hlog⟩ := read_ending hinv (by omega)
  rw [← hfiles, ← hrs] at htranscript hshots hdocument hjobs hlog
  obtain ⟨shots, hlist, hpaths⟩ := get?_screenshots p.config.date r
  obtain ⟨before, hlast⟩ := logText_concat p.config.date hnotes
    s!"Tour {r.tourId} finished: {r.verdict}"
  rw [hlast, Text.Utf8.encode_append, ← List.append_assoc] at hlog
  rw [hlist] at hshots
  exact ⟨shots, _, htranscript, hshots, hlist, hdocument, hpaths, rfl, rfl, hjobs, r.verdict, _,
    rfl, verdict_eq_fail_iff _ r, hlog⟩

theorem run_artifacts_click_refused :
    let refuse (c : PageCall) : Option Fault := match c with
      | .click .. => some (.page .browser "boom")
      | _ => none
    let p : Player Binary64 (List Called) := ⟨.refusing refuse (.ofInt 0), .seconds,
      { baseUrl := "http://app.test", routes := [], directory := "run", date := "2026-01-01" }⟩
    let t : Tour := ⟨"demo", none, [⟨.screenshot "home" none none, {}⟩,
      ⟨.annotate "Menu" "Circle the\nmenu" none, {}⟩,
      ⟨.click "Go" "tour.home.btn.go" (some (.int 50)), {}⟩]⟩
    let sc : Scene (List Called) := { page := [] }
    let r := (p.play t.id t.cues (.fresh t.id sc)).2.result
    let fs := (p.run t sc).2.files
    p.timing = .seconds ∧ (∃ st, p.Begins t sc st ∧
      Ready p.config.directory (· ∈ p.ownFiles) st.scene.files ∧
      st.scene.files.read p.queueFile = .error ⟨.absent, p.queueFile⟩) ∧
      t.steps.length < 2 ^ 63 ∧
      (r.jobs.length, r.shots.length, r.verdict) = (1, 1, "fail") ∧
      readJson fs (p.config.directory / "transcript.json") = .ok (Spoken.listJson r.transcript) ∧
      HoldsJobs fs p.queueFile r.jobs := by
  intro refuse p t sc r fs
  have ho : (p.opening (.fresh t.id sc)).1 = .ok () := ok_of_toOption (by decide +kernel)
  have hb : p.Begins t sc _ := ⟨_, Prod.ext ho rfl, initScript_apply _⟩
  have hr : Ready p.config.directory (· ∈ p.ownFiles) (p.opening (.fresh t.id sc)).2.scene.files :=
    .of_targets (ok_of_toOption (y := ["run"]) (by decide +kernel)) (by decide +kernel)
      (by decide +kernel)
  have hq : (p.opening (.fresh t.id sc)).2.scene.files.read p.queueFile =
      .error ⟨.absent, p.queueFile⟩ := by decide +kernel
  obtain ⟨-, _, _, htranscript, -, -, -, -, -, -, hjobs, -⟩ :=
    run_artifacts rfl hb hr hq (by decide)
  exact ⟨rfl, ⟨_, hb, hr, hq⟩, by decide, by decide +kernel, htranscript, hjobs⟩

/-- Without the hypothesis that the files can be written nothing need be left of a run: its result
is not written if a directory is in the place of its transcript. -/
theorem not_written_of_directory :
    let p : Player Binary64 (List Called) := ⟨.refusing (fun _ => none) (.ofInt 0), .seconds,
      { baseUrl := "http://app.test", routes := [], directory := "run", date := "2026-01-01" }⟩
    let t : Tour := ⟨"demo", none, [⟨.waitMs 5, {}⟩]⟩
    let sc : Scene (List Called) := { page := [], files :=
      ⟨[(["run"], .directory), (["run", "transcript.json"], .directory)]⟩ }
    let fs := (p.run t sc).2.files
    (∃ st, p.Begins t sc st ∧
      st.scene.files.read p.queueFile = .error ⟨.absent, p.queueFile⟩) ∧
      (faultOf? (p.run t sc).1).map Fault.message =
        some "[Errno 21] Is a directory: 'run/transcript.json'" ∧
      fs.read (p.config.directory / "result.json") =
        .error ⟨.absent, p.config.directory / "result.json"⟩ := by
  intro p t sc fs
  have ho : (p.opening (.fresh t.id sc)).1 = .ok () := ok_of_toOption (by decide +kernel)
  have hb : p.Begins t sc _ := ⟨_, Prod.ext ho rfl, initScript_apply _⟩
  exact ⟨⟨_, hb, by decide +kernel⟩, by decide +kernel, by decide +kernel⟩

end Player

end Run

end Walkthrough
