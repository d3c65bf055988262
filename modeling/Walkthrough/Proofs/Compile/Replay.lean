import Walkthrough.Execution
import Walkthrough.Proofs.Compile.RoundTrip
import Walkthrough.Proofs.Reference
import Walkthrough.Proofs.Run.Ending
/-!
Compiled tours on a page: what a tour was compiled with is there when it is run.
-/

namespace Walkthrough

namespace Compile

variable {st : Store} {s : Setting} {tourId source text : String} {t : Tour} {x : Extras}

/-- Every route that a compiled tour opens has a path. -/
theorem path_isSome_of_text_ok (h : Compile.text st s tourId source text = .ok t) {key : String}
    (hs : ⟨.goto key, x⟩ ∈ t.steps) : (s.vocabulary.path? key).isSome := by
  obtain ⟨-, -, -, hi, -⟩ := text_ok h
  exact Known.isUnknown_routeKey.mp (Tour.issues_eq_nil_iff.mp hi _ hs (.routeKey, key) rfl)

/-- A fill of a compiled tour enters a text that it states or the value of a variable. -/
theorem fillSource_of_text_ok (h : Compile.text st s tourId source text = .ok t)
    {label anchor : String} {value envName : Option String} {timeout : Option Number}
    (hs : ⟨.fill label anchor value envName timeout, x⟩ ∈ t.steps) :
    (value.isSome ∧ envName = none) ∨ (value = none ∧ envName.isSome) := by
  obtain ⟨steps, hp, rfl, -⟩ := text_ok h
  rcases mem_withIntro hs with he | hs
  · cases he
  · obtain ⟨l, hl⟩ := Guide.parse_ok hp _ hs
    obtain ⟨_, _, d, -, -, hd, -⟩ := Guide.parseLine_ok hl
    exact Guide.Directive.fillSource_of_action hd

end Compile

namespace Execution

variable {ι σ : Type} {e : Execution ι σ} {st : Store} {s : Compile.Setting}
  {tourId source text : String} {t : Tour}

/-- All that a step of a compiled tour may miss is the value of a variable. -/
theorem missing_of_unset (hc : Compile.text st s tourId source text = .ok t)
    (hv : e.vocabulary = s.vocabulary) {directory : Path} {step : Step} (hs : step ∈ t.steps)
    (hu : Run.Unset (e.config directory) step.cue) :
    ∃ label anchor name timeout, step.action = .fill label anchor none (some name) timeout ∧
      e.settings.env.get? name = none := by
  obtain ⟨a, x⟩ := step
  cases a with
  | goto key =>
    have hp := Compile.path_isSome_of_text_ok hc hs
    have hn : Route.pathOf? e.vocabulary.routes key = none := by injection hu
    rw [Vocabulary.path?, ← hv, hn] at hp
    cases hp
  | fill label anchor value envName timeout =>
    rcases Compile.fillSource_of_text_ok hc hs with ⟨hval, rfl⟩ | ⟨rfl, henv⟩
    · obtain ⟨v, rfl⟩ := Option.isSome_iff_exists.mp hval
      exact hu.elim
    · obtain ⟨name, rfl⟩ := Option.isSome_iff_exists.mp henv
      exact ⟨label, anchor, name, timeout, rfl, by injection hu⟩
  | _ => exact hu.elim

/-- A compiled tour that is run with the vocabulary it was compiled with fails over the
configuration only at a fill whose variable has no value. -/
theorem compiled_configuration (hc : Compile.text st s tourId source text = .ok t)
    (hv : e.vocabulary = s.vocabulary) (directory : Path) (sc : Scene σ) {f : Failure}
    (hf : (Run.Player.play ⟨e.page, e.timing, e.config directory⟩ t.id t.cues
      (.fresh t.id sc)).2.result.failure = some f) (hk : f.kind = .configuration) :
    ∃ step label anchor name timeout, t.steps[f.step]? = some step ∧
      step.action = .fill label anchor none (some name) timeout ∧
      e.settings.env.get? name = none := by
  obtain ⟨c, hcue, hu⟩ := Run.Player.play_failure hf
  rw [Tour.cues, List.getElem?_map, Option.map_eq_some_iff] at hcue
  obtain ⟨step, hstep, rfl⟩ := hcue
  obtain ⟨label, anchor, name, timeout, ha, hn⟩ :=
    missing_of_unset hc hv (List.mem_of_getElem? hstep) (hu hk)
  exact ⟨step, label, anchor, name, timeout, hstep, ha, hn⟩

theorem compiled_configuration_password :
    let s : Compile.Setting := ⟨⟨[⟨"home", "/"⟩], [], "auth"⟩, none, none, []⟩
    let text := "Goto routeKey: home\nFill password (tour.login.form.password) env:PASSWORD"
    let e : Execution Int (List Called) := ⟨.refusing (fun _ => none) 0, .exact,
      ⟨fun _ => pure (), pure ()⟩, s.vocabulary, { baseUrl := "http://app.test" }, {}, true, "", 0⟩
    let sc : Scene (List Called) := { page := [] }
    ∃ t f step label anchor name timeout, Compile.text Store.empty s "log-in" "guide" text = .ok t ∧
      (Run.Player.play ⟨e.page, e.timing, e.config "run"⟩ t.id t.cues
        (.fresh t.id sc)).2.result.failure = some f ∧ f.kind = .configuration ∧
      t.steps[f.step]? = some step ∧
      step.action = .fill label anchor none (some name) timeout ∧
      e.settings.env.get? name = none := by
  intro s text e sc
  let t : Tour := ⟨"log-in", none,
    [⟨.narration "In this walkthrough we'll go through log in step by step.", {}⟩,
      ⟨.goto "home", {}⟩,
      ⟨.fill "password" "tour.login.form.password" none (some "PASSWORD") none, {}⟩]⟩
  let f : Failure := ⟨2, "fill", .configuration,
    "Environment variable PASSWORD is not set (fill tour.login.form.password)"⟩
  have hc : Compile.text Store.empty s "log-in" "guide" text = .ok t :=
    ok_of_toOption (by decide +kernel)
  have hf : (Run.Player.play ⟨e.page, e.timing, e.config "run"⟩ t.id t.cues
      (.fresh t.id sc)).2.result.failure = some f := by decide +kernel
  obtain ⟨step, label, anchor, name, timeout, h⟩ := compiled_configuration hc rfl "run" sc hf rfl
  exact ⟨t, f, step, label, anchor, name, timeout, hc, hf, rfl, h⟩

end Execution

end Walkthrough
