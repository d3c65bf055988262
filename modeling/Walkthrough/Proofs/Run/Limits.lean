import Walkthrough.Proofs.Run.Calls
import Walkthrough.Proofs.Tour.Format
/-!
Limits: a call that waits for something gives up after a time, unless that time is nought. The only
calls of a run that do not give up are waits for which a step states a time of nought.
-/

namespace Walkthrough

namespace PageCall

/-- The time after which a call gives up, if it waits for something. -/
def limit? : PageCall → Option Number
  | goto _ _ timeout => some timeout
  | waitForLoad _ timeout => some timeout
  | waitForLeaving _ timeout => some timeout
  | waitForEvent _ _ timeout => some timeout
  | waitVisible _ timeout => some timeout
  | click _ timeout => some timeout
  | fill _ _ timeout => some timeout
  | addInitScript | url | pause _ | anchors | screenshot .. | count _ => none

/-- A call does not wait for ever. A time of nought is no limit. -/
def IsLimited (c : PageCall) : Prop := ∀ n ∈ c.limit?, n.isPositive = true

instance (c : PageCall) : Decidable c.IsLimited :=
  inferInstanceAs (Decidable (∀ n ∈ c.limit?, n.isPositive = true))

theorem isLimited_of_none {c : PageCall} (h : c.limit? = none) : c.IsLimited := by
  intro n hn
  rw [h] at hn
  cases hn

theorem isLimited_iff {c : PageCall} {n : Number} (h : c.limit? = some n) :
    c.IsLimited ↔ n.isPositive = true := by
  constructor
  · intro hc
    exact hc n h
  · intro hn m hm
    rw [h] at hm
    cases hm
    exact hn

end PageCall

/-- The wait for which a step states a time of nought. -/
def Step.endlessWait? (s : Step) : Option PageCall :=
  match s.action with
  | .waitForEvent _ event timeout =>
    if timeout = 0 then some (.waitForEvent (.str event) none (.int 0)) else none
  | .expectVisible _ anchor timeout =>
    if timeout = 0 then some (.waitVisible (selectorOf anchor) (.int 0)) else none
  | _ => none

/-- A call is limited, or it is the wait for which the step states a time of nought. -/
def Step.Permits (s : Step) (c : PageCall) : Prop := c.IsLimited ∨ s.endlessWait? = some c

/-- A wait that is not for a time of nought is limited if its time is that of a document. -/
theorem Step.permits_of_nonneg {s : Step} {c : PageCall} {timeout : Int}
    (hc : c.limit? = some (.int timeout)) (ht : 0 ≤ timeout)
    (hs : timeout = 0 → s.endlessWait? = some c) : s.Permits c := by
  by_cases h : timeout = 0
  · exact .inr (hs h)
  · have hpos : 0 < timeout := lt_of_le_of_ne ht (Ne.symm h)
    exact .inl ((PageCall.isLimited_iff hc).mpr (decide_eq_true hpos))

def Tour.endlessWaits (t : Tour) : List PageCall := t.steps.filterMap Step.endlessWait?

theorem Step.limit?_of_endlessWait? {s : Step} {c : PageCall} (h : s.endlessWait? = some c) :
    c.limit? = some (.int 0) := by
  unfold endlessWait? at h
  split at h
  · split_ifs at h
    cases h
    rfl
  · split_ifs at h
    cases h
    rfl
  · cases h

/-- None of these waits has a limit. -/
theorem Tour.not_isLimited {t : Tour} {c : PageCall} (h : c ∈ t.endlessWaits) : ¬c.IsLimited := by
  obtain ⟨s, -, hs⟩ := List.mem_filterMap.mp h
  rw [PageCall.isLimited_iff (Step.limit?_of_endlessWait? hs)]
  decide

/-- The usual times of a run are limits. -/
structure RunConfig.Limited (config : RunConfig) : Prop where
  default : config.defaultTimeout.isPositive = true
  navigation : config.navigationTimeout.isPositive = true

namespace Run

variable {ι σ : Type}

section

variable {p : Player ι σ} (anchor verb : String) {act : Number → PageCall}
  (ha : ∀ n, (act n).limit? = some n)

theorem isLimited_of_left {c : PageCall} {left : Int} (hc : c.limit? = some (.int left))
    (hl : ¬left ≤ 0) : c.IsLimited := by
  rw [PageCall.isLimited_iff hc]
  exact decide_eq_true (not_le.mp hl)

include ha

/-- An element is waited for and acted on only while time is left, so that both are limited. -/
theorem tryOnce_limited (deadline : ι) {left : Int} (hl : ¬left ≤ 0) :
    Calls p PageCall.IsLimited (p.tryOnce anchor act deadline left) := by
  unfold Player.tryOnce
  refine .bind (.ask (isLimited_of_left rfl hl)) fun _ => .bind (.timeLeft deadline) fun left => ?_
  split_ifs with hl
  · exact .quiet fun _ => rfl
  · exact .bind (.ask (isLimited_of_left (ha _) hl)) fun _ => .quiet fun _ => rfl

theorem attempts_limited (deadline : ι) (tries : Nat) (left : Int) :
    Calls p PageCall.IsLimited (p.attempts anchor verb act deadline tries left) := by
  induction tries generalizing left with
  | zero => exact .quiet fun _ => rfl
  | succ tries ih =>
    have hagain (line : String) : Calls p PageCall.IsLimited (do
        Run.log .debug line
        let _ : Unit ← p.ask (.pause (.num retryInterval))
        p.attempts anchor verb act deadline tries (← p.timeLeft deadline)) :=
      .bind (.quiet fun _ => rfl) fun _ =>
        .bind (.ask (PageCall.isLimited_of_none rfl)) fun _ => .bind (.timeLeft deadline) ih
    rw [Player.attempts_succ]
    split_ifs with hl
    · exact .quiet fun _ => rfl
    · refine .onFault (.bind (tryOnce_limited anchor ha deadline hl) fun _ => .quiet fun _ => rfl)
        fun g => ?_
      unfold Player.retry
      split_ifs
      · exact .quiet fun _ => rfl
      · exact .bind (.quiet fun _ => rfl) fun _ => .bind (.quiet fun _ => rfl) fun _ => hagain _
      · exact .bind (.quiet fun _ => rfl) fun _ => hagain _
      · exact .bind (.quiet fun _ => rfl) fun _ => hagain _
      · exact hagain _

theorem interact_limited (timeout : Option Json) :
    Calls p PageCall.IsLimited (p.interact anchor verb act timeout) := by
  rw [Player.interact]
  refine .bind (.now _) fun start => .bind (.quiet fun _ => rfl) fun time =>
    .bind (.quiet fun _ => rfl) fun deadline => .bind (.timeLeft _) fun left =>
      .bind (attempts_limited anchor verb ha _ _ _) fun done => ?_
  cases done with
  | none => exact .quiet fun _ => rfl
  | some done =>
    cases done with
    | true => exact .quiet fun _ => rfl
    | false =>
      exact .of_behaves (.giveUp False.elim (PageCall.isLimited_of_none rfl)) fun w hw => hw

end

section

variable {p : Player ι σ}

variable {s : Step} {index : Nat} (hc : p.config.Limited)
  (hw : s.action.WellFormed)

theorem awaitEvent_limited {K : PageCall → Prop} {name : Json} {timeout : Number}
    {route : Option String} (h : K (.waitForEvent name route timeout)) :
    Calls p K (p.awaitEvent name timeout route) :=
  .of_behaves (.awaitEvent False.elim h) fun _ hw => hw

include hc in
theorem isLimited_of_opens {key : Json} {c : PageCall} (h : Opens p.config key c) :
    c.IsLimited := by
  obtain ⟨path, url, -, -, rfl⟩ | ⟨event, -, rfl⟩ := h
  · exact (PageCall.isLimited_iff rfl).mpr hc.navigation
  · exact (PageCall.isLimited_iff rfl).mpr hc.default

include hc hw in
/-- Only a wait whose step states a time of nought has no limit. -/
theorem perform_permitted (tourId : String) :
    Calls p s.Permits (p.perform tourId index s.cue) := by
  obtain ⟨a, x⟩ := s
  have hany {c : PageCall} {s : Step} (h : c.IsLimited) : s.Permits c := .inl h
  cases a with
  | narration message => exact .bind (.quiet fun _ => rfl) fun _ => .quiet fun _ => rfl
  | goto key =>
    refine .of_behaves (.openRoute False.elim (fun _ => trivial) (fun c h => h) False.elim) ?_
    intro w hw c h
    exact hany (isLimited_of_opens hc (hw c h))
  | click label anchor timeout =>
    exact (interact_limited anchor "click" (fun _ => rfl) _).mono fun _ => hany
  | fill label anchor value envName timeout =>
    have hv : Calls p (Step.Permits ⟨.fill label anchor value envName timeout, x⟩)
        (p.fillValue anchor (value.map .str) (envName.map .str)) :=
      .of_behaves (.fillValue (fun _ => trivial) False.elim) fun w hw c hc => by
        rw [hw] at hc
        cases hc
    exact .bind hv fun v => (interact_limited anchor "fill" (fun _ => rfl) _).mono fun _ => hany
  | waitForEvent label event timeout =>
    exact awaitEvent_limited (Step.permits_of_nonneg rfl hw.2 fun h => by rw [h]; rfl)
  | expectVisible label anchor timeout =>
    have hwait : Step.Permits ⟨.expectVisible label anchor timeout, x⟩
        (.waitVisible (selectorOf anchor) (.int timeout)) :=
      Step.permits_of_nonneg rfl hw.2 fun h => by rw [h]; rfl
    refine .onFault (.ask hwait) fun g => ?_
    split_ifs
    · exact .of_behaves (.giveUp False.elim (hany (PageCall.isLimited_of_none rfl))) fun w hw => hw
    · exact .quiet fun _ => rfl
  | waitMs duration => exact .ask (hany (PageCall.isLimited_of_none rfl))
  | screenshot name label fullPage =>
    refine .of_behaves (Behaves.shoot index _ _ False.elim False.elim).1 ?_
    rintro w rfl c hc
    obtain ⟨path, full, rfl⟩ := exists_screenshot_of_mem_shotCalls hc
    exact hany (PageCall.isLimited_of_none rfl)
  | annotate label instructions target =>
    refine .of_behaves (.queueMarkup tourId index _ _ False.elim) ?_
    rintro w rfl c hc
    cases hc

include hc hw

theorem playCue_permitted (tourId : String) :
    Calls p s.Permits (p.playCue tourId index s.cue) := by
  have hany {c : PageCall} (h : c.IsLimited) : s.Permits c := .inl h
  have hcapture (moment : Moment) :
      Calls p s.Permits (p.capture index moment s.cue.extras.capture) := by
    refine .of_behaves (.capture index moment s.cue False.elim False.elim) ?_
    rintro w rfl c hc
    obtain ⟨path, full, rfl⟩ := exists_screenshot_of_mem hc
    exact hany (PageCall.isLimited_of_none rfl)
  have hact : Calls p s.Permits (p.act tourId index s.cue) :=
    .bind (hcapture .before) fun _ => .bind (perform_permitted hc hw tourId) fun _ =>
      hcapture .after
  have hspoken : Calls p s.Permits (p.actSpoken tourId index s.cue) := by
    unfold Player.actSpoken
    split
    · exact .bind (.quiet fun _ => rfl) fun _ => hact
    · exact hact
  have hdelayed : Calls p s.Permits (p.actDelayed tourId index s.cue) := by
    unfold Player.actDelayed
    split
    · exact .bind (.quiet fun _ => rfl) fun _ =>
        .bind (.ask (hany (PageCall.isLimited_of_none rfl))) fun _ => hspoken
    · exact hspoken
  rw [Player.playCue_eq]
  refine .bind (.ask (hany (PageCall.isLimited_of_none rfl))) fun url =>
    .bind (.quiet fun _ => rfl) fun _ => .bind (.quiet fun _ => rfl) fun _ =>
      .bind (.onFault hdelayed fun g => ?_) fun _ => ?_
  · split_ifs <;> exact .quiet fun _ => rfl
  · split
    · refine .of_behaves (.queueMarkup tourId index _ _ False.elim) ?_
      rintro w rfl c hc
      cases hc
    · exact .quiet fun _ => rfl

end

variable {p : Player ι σ}

/-- Of the calls of a run those that have no limit are the waits for which a step of the tour states
a time of nought. -/
theorem run_isLimited_iff {v : Json} {t : Tour} {log : σ → List Called} (sc : Scene σ)
    (ht : Tour.ofJson v = .ok t) (hc : p.config.Limited) (hl : p.page.Logs log) :
    ∃ calls, log (p.run t sc).2.page = log sc.page ++ calls ∧
      ∀ c ∈ calls, c.call.IsLimited ↔ c.call ∉ t.endlessWaits := by
  have hplay : Calls p (fun c => c.IsLimited ∨ c ∈ t.endlessWaits) (p.play t.id t.cues) := by
    refine .play (.inl (PageCall.isLimited_of_none rfl)) fun index c hcue => ?_
    obtain ⟨s, hs, rfl⟩ := List.mem_map.mp hcue
    have hpermitted : Calls p s.Permits (p.playCue t.id index s.cue) :=
      playCue_permitted hc (Tour.wellFormed_of_ofJson ht s hs).1 t.id
    exact hpermitted.mono fun c h => h.imp_right fun h => List.mem_filterMap.mpr ⟨s, hs, h⟩
  obtain ⟨calls, hleads, hcalls⟩ := hplay (.fresh t.id sc)
  refine ⟨calls, hleads.log hl, fun c hc => ⟨fun h hn => Tour.not_isLimited hn h, fun hn => ?_⟩⟩
  exact (hcalls c hc).resolve_right hn

/-- A step that waits for an event for a time of nought waits for ever. -/
theorem run_isLimited_iff_saved :
    let v : Json := .obj [("tourId", .str "demo"), ("steps", .arr [.obj [
      ("type", .str "waitForEvent"), ("name", .str "tour.event.saved"), ("timeoutMs", .int 0)]])]
    let t : Tour := ⟨"demo", none, [⟨.waitForEvent "" "tour.event.saved" 0, {}⟩]⟩
    let refuse (_ : PageCall) : Option Fault := none
    let p : Player Int (List Called) := ⟨.refusing refuse 0, .exact,
      { baseUrl := "http://app.test", routes := [], directory := "run", date := "2026-01-01" }⟩
    let sc : Scene (List Called) := { page := [] }
    let wait : PageCall := .waitForEvent (.str "tour.event.saved") none (.int 0)
    Tour.ofJson v = .ok t ∧ p.config.Limited ∧ p.page.Logs id ∧ ¬wait.IsLimited ∧
      (p.run t sc).2.page.map (·.call) = [.addInitScript, .url, wait] ∧
      ∀ c ∈ (p.run t sc).2.page, c.call.IsLimited ↔ c.call ∉ t.endlessWaits := by
  intro v t refuse p sc wait
  have ht : Tour.ofJson v = .ok t := ok_of_toOption (by decide +kernel)
  have hc : p.config.Limited := ⟨by decide, by decide⟩
  have hl : p.page.Logs id := Page.refusing_logs refuse 0
  obtain ⟨calls, hcalls, hlimited⟩ := run_isLimited_iff sc ht hc hl
  rw [show calls = (p.run t sc).2.page from hcalls.symm] at hlimited
  exact ⟨ht, hc, hl, by decide, by decide +kernel, hlimited⟩

end Run

end Walkthrough
