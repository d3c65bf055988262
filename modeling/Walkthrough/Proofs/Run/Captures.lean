import Walkthrough.Proofs.Run.Softly
import Walkthrough.Proofs.Run.Transcript
/-!
Captures are soft: on a page that overlooks them, and on which they fail over the browser if they
do, a run calls and tells the same as the run of the same tour without its captures.
-/

namespace Walkthrough

namespace Run

namespace Player

/-- The opening of a run makes its directory, and in it the one of the screenshots. -/
theorem opening_directories {ι σ : Type} {p : Player ι σ} {st st₀ : State σ}
    (ho : p.opening st = (.ok (), st₀)) :
    st₀.scene.files.HasDirectory p.config.directory ∧
      st₀.scene.files.HasDirectory (p.config.directory / "screens") := by
  have hfile {w : Filing Unit} {s s' : State σ}
      (h : (onScene id (Act.file w) : Play Fault σ Unit) s = (.ok (), s')) :
      w s.scene.files = (.ok (), s'.scene.files) := by
    unfold onScene at h
    rw [Attempt.focus_apply, Act.file_apply] at h
    obtain ⟨hr, rfl⟩ := Prod.mk.inj h
    exact Prod.ext (mapError_eq_ok.mp hr) rfl
  obtain ⟨⟨⟩, s, hmake, hstart⟩ := Attempt.bind_eq_ok.mp ho
  have hparts : (p.config.directory / "screens").parts ≠ [] := by
    rw [Path.join_name _ _ isName_screens.single]
    exact List.append_ne_nil_of_right_ne_nil _ (List.cons_ne_nil _ _)
  have hscreens := Filing.hasDirectory_of_makeDirectories hparts (hfile hmake)
  have hdirectory := hscreens.of_join isName_screens
  have hlog := hfile hstart
  have hparent : p.logFile.parent = p.config.directory :=
    Path.parent_join_name _ _ (ofString_ownName "runlog.txt" (by decide))
  unfold RunLog.start at hlog
  rw [hparent, Attempt.bind_ok (Filing.makeDirectories_of_hasDirectory hdirectory)] at hlog
  have hsame := Filing.append_sameDirectories s.scene.files p.logFile []
  rw [hlog] at hsame
  exact ⟨hdirectory.of_sameDirectories hsame, hscreens.of_sameDirectories hsame⟩

variable {σ : Type} {p : Player Int σ} {t : Tour} {sc : Scene σ} {R : Int → σ → σ → Prop}

theorem accounted {i : Nat} {s : Step} (hs : t.steps[i]? = some s) :
    Accounted p (p.CaptureFile t) (p.CaptureCall t) (p.OtherCall t) i s where
  capture moment _ hc := ⟨i, s, moment, hs, hc⟩
  file k hk := ⟨i, s, k, hk, hs, rfl⟩
  url := .inr ⟨i, s, hs, .inl rfl⟩
  delay _ hc := .inr ⟨i, s, hs, .inr (.inl hc)⟩
  action _ hc := .inr ⟨i, s, hs, .inr (.inr hc)⟩

/-- What a run and the run without its captures come to on the page, if their files can be made. -/
theorem onPage_softly {st : State σ} (ht : p.timing = .exact)
    (ho : p.page.Overlooks (p.CaptureCall t) (p.OtherCall t) R) (hR : R 0 sc.page sc.page)
    (hopening : p.opening (.fresh t.id sc) = (.ok (), st))
    (hw : ∀ file, p.CaptureFile t file → st.scene.files.Writable file)
    (hsoft : ∀ i c moment s, p.CaptureDue t sc i c moment s → p.CaptureSoft i c moment s) :
    Softly p (p.CaptureFile t) (p.CaptureCall t) R (noteStart t.id t.cues st)
      (noteStart t.id t.cues st) (p.onPage t.id t.cues (noteStart t.id t.cues st))
      (p.onPage t.id t.withoutCaptures.cues (noteStart t.id t.cues st)) := by
  obtain ⟨hdirectory, hscreens⟩ := opening_directories hopening
  have hpage : st.scene.page = sc.page := by
    have hframe := (opening_frame (p := p) (.fresh t.id sc)).1
    rwa [hopening] at hframe
  have hst : Alike p.config.directory (p.CaptureFile t) (R 0) (noteStart t.id t.cues st)
      (noteStart t.id t.cues st) := by
    refine ⟨?_, .refl _, .refl _, ⟨hdirectory, hw⟩, hscreens⟩
    change R 0 st.scene.page st.scene.page
    rwa [hpage]
  rw [Tour.cues_withoutCaptures]
  refine Softly.after (Lockstep.called ho (.inl rfl)) hst fun _ _ s s' hs hst => ?_
  refine Softly.playCues ho ht hst (fun i s hi => ?_) fun i c s₁ moment s₂ hr hs₂ => ?_
  · rw [Nat.zero_add]
    exact accounted hi
  · exact hsoft i c moment s₂ ⟨s, s₁, ⟨st, hopening, hs⟩, hr, hs₂⟩

/-- Captures are soft. On a page that overlooks the calls made for them over all other calls of a
run, with a clock that is read in whole milliseconds, and where a capture that is due cannot be
made only for an error of the browser, a run of a tour calls the same as a run of the tour without
its captures, but for their calls, and comes to the same but for screenshots and the time that the
steps took. -/
theorem captures_soft {log : σ → List Called} (hl : p.page.Logs log) (ht : p.timing = .exact)
    (ho : p.page.Overlooks (p.CaptureCall t) (p.OtherCall t) R) (hR : R 0 sc.page sc.page)
    (hw : ∀ st, p.opening (.fresh t.id sc) = (.ok (), st) →
      ∀ file, p.CaptureFile t file → st.scene.files.Writable file)
    (hsoft : ∀ i c moment st, p.CaptureDue t sc i c moment st → p.CaptureSoft i c moment st) :
    SameStory (p.outcome t sc) (p.outcome t.withoutCaptures sc) ∧
    ∃ calls calls', log (p.run t sc).2.page = log sc.page ++ calls ∧
      log (p.run t.withoutCaptures sc).2.page = log sc.page ++ calls' ∧
      Without (p.CaptureCall t) calls calls' := by
  have hframe := opening_frame (p := p) (.fresh t.id sc)
  unfold outcome
  change SameStory (p.play t.id t.cues (.fresh t.id sc)).2.result
      (p.play t.id t.withoutCaptures.cues (.fresh t.id sc)).2.result ∧
    ∃ calls calls', log (p.play t.id t.cues (.fresh t.id sc)).2.scene.page = log sc.page ++ calls ∧
      log (p.play t.id t.withoutCaptures.cues (.fresh t.id sc)).2.scene.page =
        log sc.page ++ calls' ∧ Without (p.CaptureCall t) calls calls'
  rcases hopening : p.opening (.fresh t.id sc) with ⟨e | ⟨⟩, st⟩
  · rw [hopening] at hframe
    rw [play_eq, play_eq, Attempt.bind_error hopening, Attempt.bind_error hopening]
    refine ⟨.refl _, [], [], ?_, ?_, .nil⟩
    · rw [List.append_nil, hframe.1]
      rfl
    · rw [List.append_nil, hframe.1]
      rfl
  · rw [hopening] at hframe
    -- both runs begin their notes in the same way, for the steps are as many
    have hstart : noteStart t.id t.withoutCaptures.cues st = noteStart t.id t.cues st := by
      unfold noteStart
      rw [Tour.length_cues, Tour.length_cues, Tour.withoutCaptures, List.length_map]
    obtain ⟨-, ⟨d, halike⟩, calls, calls', hcalls, hcalls', hwithout⟩ :=
      onPage_softly ht ho hR hopening (hw st hopening) hsoft
    obtain ⟨hr, hp⟩ := play_frame hopening
      (Prod.eta (p.onPage t.id t.cues (noteStart t.id t.cues st))).symm
    obtain ⟨hr', hp'⟩ := play_frame hopening (Prod.eta (p.onPage t.id t.withoutCaptures.cues
      (noteStart t.id t.withoutCaptures.cues st))).symm
    rw [hstart] at hr' hp'
    rw [hr, hr', hp, hp']
    have hpage : (noteStart t.id t.cues st).scene.page = sc.page := hframe.1
    rw [hpage] at hcalls hcalls'
    exact ⟨halike.story, calls, calls', hcalls.log hl, hcalls'.log hl, hwithout⟩

end Player

end Run

def PageCall.isClick : PageCall → Bool
  | click .. => true
  | _ => false

def PageCall.isScreenshot : PageCall → Bool
  | screenshot .. => true
  | _ => false

theorem Run.Player.CaptureCall.isScreenshot {ι σ : Type} {p : Player ι σ} {t : Tour}
    {call : PageCall} (h : p.CaptureCall t call) : call.isScreenshot = true := by
  obtain ⟨i, s, moment, -, hcall⟩ := h
  obtain ⟨path, fullPage, rfl⟩ := exists_screenshot_of_mem hcall
  rfl

/-- Why a page refuses a call on which every screenshot times out, and where something is in front
of what is clicked first. -/
def Page.crowdedRefusal (log : List Called) (c : PageCall) : Option Fault :=
  if c.isScreenshot then some (.page .timeout "Timeout 500ms exceeded.")
  else if c.isClick ∧ log.all (!·.call.isClick) then
    some (.page .browser "<div> intercepts pointer events")
  else none

/-- Such a page, with a log of its calls and the time, of which a screenshot takes more than any
other call. -/
def Page.crowded : Page Int (List Called × Int) where
  answer c s :=
    (match crowdedRefusal s.1 c with
      | some f => .error f
      | none => .ok (plainAnswer c),
      s.1 ++ [⟨c, crowdedRefusal s.1 c⟩], s.2 + if c.isScreenshot then 500 else 20)
  clock s := (.ok s.2, s)

/-- The one state of such a page is ahead of the other in time, and a click has been tried in both
or in none. -/
def Page.CrowdedAhead (d : Int) (s s' : List Called × Int) : Prop :=
  s.2 = s'.2 + d ∧ s.1.all (!·.call.isClick) = s'.1.all (!·.call.isClick)

namespace Page

theorem crowded_logs : crowded.Logs Prod.fst where
  answer c s := by
    unfold crowded
    cases hr : crowdedRefusal s.1 c <;> simp [hr, faultOf?]
  clock s := rfl

theorem isBrowser_of_crowded {c : PageCall} {s : List Called × Int} {f : Fault}
    (h : (crowded.answer c s).1 = .error f) : f.isBrowser = true := by
  unfold crowded crowdedRefusal at h
  dsimp only at h
  split at h
  · next hf =>
    cases h
    split_ifs at hf <;> cases hf <;> rfl
  · cases h

theorem crowded_overlooks {overlooked others : PageCall → Prop}
    (h : ∀ c, overlooked c → c.isScreenshot = true) :
    crowded.Overlooks overlooked others CrowdedAhead where
  answer d s s' c hs _ := by
    have hrefusal : crowdedRefusal s.1 c = crowdedRefusal s'.1 c := by
      unfold crowdedRefusal
      rw [hs.2]
    refine ⟨?_, ?_, ?_⟩
    · simp only [crowded, hrefusal]
    · change s.2 + _ = s'.2 + _ + d
      rw [hs.1]
      omega
    · simp only [crowded, List.all_append, hs.2]
      rfl
  clock d s s' hs := ⟨congrArg Except.ok hs.1, hs⟩
  overlooked d s s' c hs hc := by
    have hclick : c.isClick = false := by
      have hshot := h c hc
      cases c <;> first | rfl | cases hshot
    refine ⟨d + 500, ?_, ?_⟩
    · change s.2 + (if c.isScreenshot then 500 else 20) = s'.2 + (d + 500)
      rw [if_pos (h c hc), hs.1]
      omega
    · simp only [crowded, List.all_append, List.all_cons, List.all_nil, hclick, hs.2]
      simp

end Page

namespace Run.Player

/-- Two captures time out around a click that has to be tried twice. -/
theorem captures_soft_crowded :
    let p : Player Int (List Called × Int) := ⟨.crowded, .exact,
      { baseUrl := "http://app.test", routes := [], directory := "run", date := "2026-01-01" }⟩
    let t : Tour := ⟨"demo", none, [
      ⟨.click "Go" "tour.home.btn.go" none,
        { capture := some ⟨.before, "home", none⟩, markup := some ⟨"Circle it", none⟩ }⟩,
      ⟨.narration "Done", { capture := some ⟨.after, "done", some false⟩ }⟩]⟩
    let sc : Scene (List Called × Int) := { page := ([], 0) }
    SameStory (p.outcome t sc) (p.outcome t.withoutCaptures sc) ∧
    (p.outcome t sc).failure = none ∧
    ∃ calls', (p.run t.withoutCaptures sc).2.page.1 = calls' ∧
      Without (p.CaptureCall t) (p.run t sc).2.page.1 calls' ∧
      (p.run t sc).2.page.1.length = calls'.length + 2 := by
  intro p t sc
  have hw (st : State (List Called × Int)) (ho : p.opening (.fresh t.id sc) = (.ok (), st))
      (file : Path) (hfile : p.CaptureFile t file) : st.scene.files.Writable file := by
    have hst : (p.opening (.fresh t.id sc)).2 = st := congrArg Prod.snd ho
    obtain ⟨i, s, k, hk, hs, hfile⟩ := hfile
    rw [hfile, ← hst]
    rcases i with _ | _ | i
    · cases hs
      cases hk
      exact Store.writable_of_target (by decide +kernel)
    · cases hs
      cases hk
      exact Store.writable_of_target (by decide +kernel)
    · cases hs
  have hsoft (i : Nat) (c : Cue) (moment : Moment) (st : State (List Called × Int))
      (_ : p.CaptureDue t sc i c moment st) : p.CaptureSoft i c moment st :=
    fun _ _ _ => Page.isBrowser_of_crowded
  have hR : Page.CrowdedAhead 0 sc.page sc.page := ⟨rfl, rfl⟩
  obtain ⟨hstory, calls, calls', hcalls, hcalls', hwithout⟩ := captures_soft Page.crowded_logs rfl
    (Page.crowded_overlooks fun c hc => hc.isScreenshot) hR hw hsoft
  have hlog : (p.run t sc).2.page.1 = calls := hcalls
  have hlog' : (p.run t.withoutCaptures sc).2.page.1 = calls' := hcalls'
  refine ⟨hstory, by decide +kernel, calls', hlog', ?_, ?_⟩
  · rw [hlog]
    exact hwithout
  · rw [← hlog']
    decide +kernel

end Run.Player

end Walkthrough
