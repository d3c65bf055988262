import Mathlib.Algebra.Group.Int.Defs
import Walkthrough.Proofs.Except
import Walkthrough.Proofs.Run.Budget
import Walkthrough.Proofs.Run.Ending
/-!
Sequences: the steps of a run come in their order, each with its record and its calls, up to the
first that does not pass; and a run in which only the browser's errors come up ends well.
-/

namespace Walkthrough

/-- The time that an action on an element states, which it need not. -/
def ActionOf.patience? {τ φ ν : Type} : ActionOf τ φ ν → Option (Option ν)
  | click _ _ timeout => some timeout
  | fill _ _ _ _ timeout => some timeout
  | _ => none

/-- The names of the screenshots that a step makes. -/
def Step.shotNames (s : Step) : List String :=
  (match s.action with
    | .screenshot name .. => [name]
    | _ => []) ++ (s.extras.capture.map (·.name)).toList

namespace Run

variable {ι σ : Type} {p : Player ι σ} {t : Tour}

namespace Player

/-- The files that a run of a tour may write. -/
def outputs (p : Player ι σ) (t : Tour) : List Path :=
  ownNames.map (fun name : String => p.config.directory / name) ++
    t.steps.zipIdx.flatMap fun (s, i) => s.shotNames.map (shotPath p.config.directory i)

theorem own_mem_outputs {name : String} (h : name ∈ ownNames) :
    p.config.directory / name ∈ p.outputs t :=
  List.mem_append_left _ (List.mem_map_of_mem h)

theorem shot_mem_outputs {i : Nat} {s : Step} {name : String} (hi : t.steps[i]? = some s)
    (h : name ∈ s.shotNames) : shotPath p.config.directory i name ∈ p.outputs t :=
  List.mem_append_right _ (List.mem_flatMap.mpr
    ⟨(s, i), List.mem_zipIdx_iff_getElem?.mpr hi, List.mem_map_of_mem h⟩)

/-- What it takes for a run of a tour to raise nothing: the page raises nothing but a browser's
errors and always tells its URL and the time, the URLs of the routes that are opened can be built,
and the times that elements are given can be counted on a clock that goes forward. -/
structure Sound (p : Player ι σ) (t : Tour) : Prop where
  gentle : p.Gentle
  url : ∀ s ∈ t.steps, ∀ key, s.action = .goto key →
    ∀ path, Route.pathOf? p.config.routes key = some path →
      ∃ url, routeUrl p.config.baseUrl path p.config.tourMode = .ok url
  time : ∀ s ∈ t.steps, ∀ timeout ∈ s.action.patience?,
    p.Counts (.num (timeout.getD p.config.defaultTimeout)) ∧
      p.GoesForward (timeout.getD p.config.defaultTimeout)

theorem Sound.step {i : Nat} {s : Step} (h : p.Sound t) (hi : t.steps[i]? = some s) :
    p.StepSound (· ∈ p.outputs t) i s.cue := by
  have hs := List.mem_of_getElem? hi
  have hurl := h.url s hs
  have htime : ∀ timeout ∈ s.action.patience?,
      p.Counts (.num (timeout.getD p.config.defaultTimeout)) ∧
        p.TriesEnd (.num (timeout.getD p.config.defaultTimeout)) :=
    fun timeout ht => (h.time s hs timeout ht).imp_right fun hf => hf.triesEnd rfl h.gentle.clock
  refine ⟨h.gentle, ?_, fun k hk => ?_, fun _ => own_mem_outputs (by decide)⟩
  · obtain ⟨a, x⟩ := s
    unfold ActionSound
    cases a with
    | goto key => exact ⟨key, rfl, hurl key rfl⟩
    | click label anchor timeout =>
      have hc := htime timeout rfl
      cases timeout <;> exact hc
    | fill label anchor value envName timeout =>
      have hc := htime timeout rfl
      refine ⟨fun name hn => ?_, by cases timeout <;> exact hc⟩
      obtain ⟨n, -, rfl⟩ := Option.map_eq_some_iff.mp hn
      exact ⟨n, rfl⟩
    | screenshot name label fullPage =>
      exact ⟨name, rfl, shot_mem_outputs hi (by simp [Step.shotNames])⟩
    | annotate label instructions target => exact own_mem_outputs (by decide)
    | _ => trivial
  · obtain ⟨c, hc, rfl⟩ := Option.map_eq_some_iff.mp hk
    exact ⟨c.name, rfl, shot_mem_outputs hi (by simp [Step.shotNames, hc])⟩

/-- Where a run is sound and its files can be written, its steps raise nothing. -/
theorem Sound.playCue_ne_raised {i : Nat} {s : Step} {st : State σ} (h : p.Sound t)
    (hi : t.steps[i]? = some s) (hr : Ready p.config.directory (· ∈ p.outputs t) st.scene.files)
    (f : Fault) : (p.playCue t.id i s.cue (p.clocked st)).1 ≠ .error (.raised f) := by
  intro hraised
  have hb : Behaves p (· ∈ p.outputs t) (stepPlan p.config i s.cue) (Unset p.config s.cue) True
      (p.playCue t.id i s.cue) := .playCue fun _ => h.step hi
  rcases isBrowser_of_playCue hraised with hn | hurl
  · rw [(hb (p.clocked st)).sound trivial hr f hraised] at hn
    cases hn
  · exact h.gentle.url _ f hurl

/-- A page that refuses calls with a browser's errors, but tells its URL, is gentle. -/
theorem refusing_gentle {refuse : PageCall → Option Fault} (timing : Timing ι) (config : RunConfig)
    (time : ι) (hb : ∀ c, ∀ f ∈ refuse c, f.isBrowser = true) (hu : refuse .url = none) :
    (⟨.refusing refuse time, timing, config⟩ : Player ι (List Called)).Gentle where
  browser c s f hf := by
    simp only [Page.refusing] at hf
    cases hr : refuse c with
    | none => rw [hr] at hf; cases hf
    | some g => rw [hr] at hf; cases hf; exact hb c _ hr
  url s f hf := by
    simp only [Page.refusing, hu] at hf
    cases hf
  clock s f hf := by cases hf

/-- So is one whose calls take their time. -/
theorem working_gentle {refuse : PageCall → Option Fault} (timing : Timing Int) (config : RunConfig)
    (hb : ∀ c, ∀ f ∈ refuse c, f.isBrowser = true) (hu : refuse .url = none) :
    (⟨.working refuse, timing, config⟩ : Player Int (List Called)).Gentle where
  browser := (refusing_gentle timing config 0 hb hu).browser
  url := (refusing_gentle timing config 0 hb hu).url
  clock s f hf := by cases hf

/-- Whole times are counted exactly in whole milliseconds. -/
theorem counts_exact (page : Page Int σ) (config : RunConfig) (n : Int) :
    (⟨page, .exact, config⟩ : Player Int σ).Counts (.num (.int n)) :=
  ⟨.int n, rfl, fun t _ => ⟨t + n, rfl, fun t' _ => ⟨t + n - t', rfl⟩⟩⟩

end Player

end Run

end Walkthrough
