import Walkthrough.Proofs.Except
import Walkthrough.Proofs.Run.Ending
/-!
Verdicts: what it takes for a run to write a result that says "pass".
-/

namespace Walkthrough

theorem Tour.length_cues (t : Tour) : t.cues.length = t.steps.length := List.length_map _

/-- A step's cue is of the step's kind. -/
theorem Tour.kinds_cues (t : Tour) :
    t.cues.map (·.action.kind) = t.steps.map (·.action.kind) := by
  rw [Tour.cues, List.map_map]
  refine List.map_congr_left fun s _ => ?_
  change (s.action.map Json.str Json.bool Json.num).kind = s.action.kind
  cases s.action <;> rfl

namespace Run.Player

variable {ι σ : Type}

variable {p : Player ι σ} {t : Tour} {sc : Scene σ} {r : Result}

/-- A run writes a result: its directory and its log can be made, and what came of it can be
written when its steps have ended. -/
def Writes (p : Player ι σ) (t : Tour) (sc : Scene σ) (r : Result) : Prop :=
  ∃ st, p.opening (.fresh t.id sc) = (.ok (), st) ∧
    (p.onPage t.id t.cues (noteStart t.id t.cues st)).2.result = r ∧
    (p.finish (p.onPage t.id t.cues (noteStart t.id t.cues st)).2).1 = .ok ()

theorem verdict_eq_pass : r.verdict = "pass" ↔ r.failure = none := by
  unfold Result.verdict Result.passed
  cases r.failure <;> simp

theorem Writes.file (h : p.Writes t sc r) :
    (p.run t sc).2.files.read (p.config.directory / "result.json") = .ok (p.resultBytes r) := by
  obtain ⟨st, ho, rfl, hf⟩ := h
  exact read_result ho rfl hf

theorem Writes.refused {f : Fault} (h : p.Writes t sc r)
    (hf : (p.page.answer .addInitScript sc.page).1 = .error f) :
    r = { tourId := t.id } ∧ ∀ r', (p.run t sc).1 ≠ .ok r' := by
  obtain ⟨st, ho, rfl, -⟩ := h
  obtain ⟨f, -, hx, hr⟩ | ⟨st, hb, -⟩ := onPage_cases ho
  · refine ⟨hr, fun r' he => ?_⟩
    have hplay : (p.play t.id t.cues (.fresh t.id sc)).1 = .ok () := (p.run_eq_ok he).1
    rw [(play_ending ho (Prod.eta _).symm).2.2 hplay] at hx
    cases hx
  · rw [hb.state.1] at hf
    cases hf

theorem Begins.unique {st st' : State σ} (h : p.Begins t sc st) (h' : p.Begins t sc st') :
    st = st' := by
  obtain ⟨st₀, ho, ha⟩ := h
  obtain ⟨st₁, ho', ha'⟩ := h'
  rw [ho] at ho'
  cases ho'
  rw [ha] at ha'
  cases ha'
  rfl

/-- The steps of a run that writes its result have taken their course. -/
theorem Writes.course {st : State σ} (hc : p.page.TellsTime) (h : p.Writes t sc r)
    (hb : p.Begins t sc st) : ∃ x s, Course p t.id 0 t.cues st x s ∧ s.result = r := by
  obtain ⟨st₀, ho, rfl, -⟩ := h
  obtain ⟨f, hf, -, -⟩ | ⟨st', hb', he⟩ := onPage_cases ho
  · rw [hb.state.1] at hf
    cases hf
  · cases hb.unique hb'
    rw [he]
    exact ⟨_, _, playCues_course hc t.id 0 t.cues st, rfl⟩

theorem Writes.failure_eq_none_iff {st : State σ} (hc : p.page.TellsTime) (h : p.Writes t sc r)
    (hb : p.Begins t sc st) : r.failure = none ↔ PassesAll p t.id 0 t.cues st := by
  obtain ⟨x, s, hcourse, rfl⟩ := h.course hc hb
  exact hcourse.failure_eq_none_iff (by rw [hb.state.2.2])

/-- The verdict is a pass exactly if the page refused the script that it is given first, which no
step follows, or if every step passed, with a record of each. -/
theorem verdict_pass_iff (hc : p.page.TellsTime) (h : p.Writes t sc r) :
    (p.run t sc).2.files.read (p.config.directory / "result.json") = .ok (p.resultBytes r) ∧
    (r.verdict = "pass" ↔ (∃ f, (p.page.answer .addInitScript sc.page).1 = .error f) ∨
      ∃ st, p.Begins t sc st ∧ PassesAll p t.id 0 t.cues st) ∧
    (∀ f, (p.page.answer .addInitScript sc.page).1 = .error f →
      r.records = [] ∧ ∀ r', (p.run t sc).1 ≠ .ok r') ∧
    (∀ st, p.Begins t sc st → PassesAll p t.id 0 t.cues st →
      r.records.map (·.step) = List.range t.steps.length ∧
      r.records.map (·.stepKind) = t.steps.map (·.action.kind) ∧
      ∀ x ∈ r.records, x.passed = true) := by
  refine ⟨h.file, ?_, fun f hf => ?_, fun st hb hall => ?_⟩
  · rw [verdict_eq_pass]
    obtain ⟨st₀, ho, -⟩ := id h
    obtain ⟨f, hf, -⟩ | ⟨st, hb, -⟩ := onPage_cases ho
    · -- no step was played, so that no failure could be noted
      rw [(h.refused hf).1]
      exact ⟨fun _ => .inl ⟨f, hf⟩, fun _ => rfl⟩
    · rw [h.failure_eq_none_iff hc hb]
      refine ⟨fun hall => .inr ⟨st, hb, hall⟩, ?_⟩
      rintro (⟨f, hf⟩ | ⟨st', hb', hall⟩)
      · rw [hb.state.1] at hf
        cases hf
      · rwa [hb.unique hb']
  · obtain ⟨rfl, hr⟩ := h.refused hf
    exact ⟨rfl, hr⟩
  · have hnone := (h.failure_eq_none_iff hc hb).mpr hall
    obtain ⟨x, s, hcourse, rfl⟩ := h.course hc hb
    obtain ⟨records, -, hr, hs, -⟩ := hcourse.recorded (by rw [hb.state.2.2])
    rw [hb.state.2.2, List.nil_append] at hr
    rw [hnone, ← hr] at hs
    have hcues := hs.complete
    rw [t.length_cues, t.kinds_cues] at hcues
    exact hcues

theorem verdict_pass_refused :
    let refuse (c : PageCall) : Option Fault :=
      if c = .addInitScript then some (.page .browser "page closed") else none
    let p : Player Int (List Called) := ⟨.refusing refuse 0, .exact,
      { baseUrl := "http://app.test", routes := [], directory := "run", date := "2026-01-01" }⟩
    let t : Tour := ⟨"demo", none, [⟨.waitMs 5, {}⟩, ⟨.narration "Hi", {}⟩]⟩
    let sc : Scene (List Called) := { page := [] }
    ∃ r, p.page.TellsTime ∧ p.Writes t sc r ∧ r.verdict = "pass" ∧ r.records = [] ∧
      (p.run t sc).2.files.read (p.config.directory / "result.json") = .ok (p.resultBytes r) := by
  intro refuse p t sc
  have hc : p.page.TellsTime := Page.refusing_tellsTime refuse 0
  have ho : (p.opening (.fresh t.id sc)).1 = .ok () := ok_of_toOption (by decide +kernel)
  have hf : (p.finish (p.onPage t.id t.cues
      (noteStart t.id t.cues (p.opening (.fresh t.id sc)).2)).2).1 = .ok () :=
    ok_of_toOption (by decide +kernel)
  have hw : p.Writes t sc _ := ⟨_, Prod.ext ho rfl, rfl, hf⟩
  obtain ⟨hread, hpass, hrefused, -⟩ := verdict_pass_iff hc hw
  have ha : (p.page.answer .addInitScript sc.page).1 = .error (.page .browser "page closed") := rfl
  exact ⟨_, hc, hw, hpass.mpr (.inl ⟨_, ha⟩), (hrefused _ ha).1, hread⟩

end Run.Player

end Walkthrough
