import Walkthrough.Proofs.Run.Calls
/-!
The selectors of a run: a call that names an element of the page names it by the anchor of the step
that makes the call, and by nothing else.
-/

namespace Walkthrough

/-- The words by which a call finds its element, if it is about one. -/
def PageCall.selector? : PageCall → Option String
  | count selector | waitVisible selector _ | click selector _ | fill selector .. => some selector
  | addInitScript | goto .. | url | waitForLoad .. | pause _ | waitForLeaving ..
  | waitForEvent .. | anchors | screenshot .. => none

/-- A call is about no element but the one that an anchor among some stands for. -/
def PageCall.SelectsBy (anchors : String → Prop) (c : PageCall) : Prop :=
  ∀ x ∈ c.selector?, ∃ a, anchors a ∧ x = selectorOf a

namespace PageCall.SelectsBy

variable {anchors : String → Prop} {c : PageCall}

theorem of_none (h : c.selector? = none) : c.SelectsBy anchors := by
  intro x hx
  rw [h] at hx
  cases hx

theorem of_some {a : String} (h : c.selector? = some (selectorOf a)) (ha : anchors a) :
    c.SelectsBy anchors := by
  intro x hx
  rw [h] at hx
  cases hx
  exact ⟨a, ha, rfl⟩

end PageCall.SelectsBy

namespace Run

open PageCall (SelectsBy)

variable {ι σ : Type} {config : RunConfig} {index : Nat} {anchors : String → Prop} {c : PageCall}

/-- A call of a step is a look at the URL, the pause before the step, a call of its capture or one
of its action. -/
theorem mem_of_mem_stepPlan {cue : Cue} {w : List PageCall} (hw : w ∈ stepPlan config index cue)
    (hc : c ∈ w) : c = .url ∨ c ∈ delayCalls cue ∨
      (∃ moment, c ∈ captureCalls config.directory index moment cue) ∨
      ActionCall config index cue c := by
  obtain ⟨_, rfl, _, ⟨_, rfl, _, ⟨_, rfl, _, ⟨calls, hcalls, _, rfl, rfl⟩, rfl⟩, rfl⟩, rfl⟩ := hw
  simp only [List.mem_append, List.mem_singleton] at hc
  obtain hc | hc | hc | hc | hc := hc
  · exact .inl hc
  · exact .inr (.inl hc)
  · exact .inr (.inr (.inl ⟨.before, hc⟩))
  · exact .inr (.inr (.inr (hcalls c hc)))
  · exact .inr (.inr (.inl ⟨.after, hc⟩))

theorem Handles.selectsBy {a : String} {act : Number → PageCall} (h : Handles (selectorOf a) act c)
    (hact : ∀ left, (act left).selector? = some (selectorOf a)) (ha : anchors a) :
    c.SelectsBy anchors := by
  obtain ⟨left, rfl⟩ | ⟨left, rfl⟩ | rfl | rfl := h
  · exact .of_some rfl ha
  · exact .of_some (hact left) ha
  · exact .of_none rfl
  · exact .of_some rfl ha

/-- An action's calls are about the element of its anchor. -/
theorem ActionCall.selectsBy {s : Step} (h : ActionCall config index s.cue c)
    (hs : ∀ a ∈ s.action.anchor?, anchors a) : c.SelectsBy anchors := by
  obtain ⟨action, extras⟩ := s
  cases action with
  | narration message => exact h.elim
  | goto key =>
    obtain ⟨path, url, -, -, rfl⟩ | ⟨event, -, rfl⟩ := h
    · exact .of_none rfl
    · exact .of_none rfl
  | click label anchor timeout => exact Handles.selectsBy h (fun _ => rfl) (hs anchor rfl)
  | fill label anchor value envName timeout =>
    obtain ⟨value, h⟩ := h
    exact Handles.selectsBy h (fun _ => rfl) (hs anchor rfl)
  | waitForEvent label event timeout =>
    obtain rfl := h
    exact .of_none rfl
  | expectVisible label anchor timeout =>
    obtain rfl | rfl := h
    · exact .of_some rfl (hs anchor rfl)
    · exact .of_some rfl (hs anchor rfl)
  | waitMs duration =>
    obtain rfl := h
    exact .of_none rfl
  | screenshot name label fullPage =>
    obtain ⟨path, full, rfl⟩ := exists_screenshot_of_mem_shotCalls h
    exact .of_none rfl
  | annotate label instructions target => exact h.elim

/-- All calls of a step together are about no element but that of its anchor. -/
theorem selectsBy_of_mem_stepPlan {s : Step} (hs : ∀ a ∈ s.action.anchor?, anchors a)
    {w : List PageCall} (hw : w ∈ stepPlan config index s.cue) (hc : c ∈ w) :
    c.SelectsBy anchors := by
  obtain rfl | hc | ⟨moment, hc⟩ | hc := mem_of_mem_stepPlan hw hc
  · exact .of_none rfl
  · unfold delayCalls at hc
    rw [Option.mem_toList, Option.map_eq_some_iff] at hc
    obtain ⟨time, -, rfl⟩ := hc
    exact .of_none rfl
  · obtain ⟨path, fullPage, rfl⟩ := exists_screenshot_of_mem hc
    exact .of_none rfl
  · exact hc.selectsBy hs

/-- Step by step, the calls of a run are about the elements of the tour's anchors. -/
theorem Player.run_selectsBy (p : Player ι σ) {t : Tour}
    (ht : ∀ s ∈ t.steps, ∀ a ∈ s.action.anchor?, anchors a) (sc : Scene σ) :
    ∃ calls, p.page.Leads sc.page calls (p.run t sc).2.page ∧
      ∀ c ∈ calls, c.call.SelectsBy anchors := by
  have hplay : Calls p (SelectsBy anchors) (p.play t.id t.cues) := by
    refine .play (.of_none rfl) fun index cue hcue => .playCue fun w hw call hc => ?_
    obtain ⟨s, hs, rfl⟩ := List.mem_map.mp hcue
    exact selectsBy_of_mem_stepPlan (ht s hs) hw hc
  exact hplay (.fresh t.id sc)

end Run

end Walkthrough
