import Walkthrough.Proofs.Run.Conduct
/-!
The parts of a step, each with the calls it makes and what it takes for it to raise nothing but a
browser's errors; and a whole step, whose calls come in the order of its parts.
-/

namespace Walkthrough

/-- A reading that a page's clock can give. -/
def Page.Reads {ι σ : Type} (page : Page ι σ) (t : ι) : Prop := ∃ s, (page.clock s).1 = .ok t

namespace Run

/-- Calls with which an element is acted on: waits for it, tries, pauses between them, and a count
when the time is up. -/
def Handles (selector : String) (act : Number → PageCall) (c : PageCall) : Prop :=
  (∃ left, c = .waitVisible selector left) ∨ (∃ left, c = act left) ∨
    c = .pause (.num retryInterval) ∨ c = .count selector

/-- Calls that open a route: going to its URL, and waiting for the event that it is ready. -/
def Opens (config : RunConfig) (key : Json) (c : PageCall) : Prop :=
  (∃ path url, config.path? key = .ok (some path) ∧
      routeUrl config.baseUrl path config.tourMode = .ok url ∧
      c = .goto url .parsed config.navigationTimeout) ∨
    ∃ e ∈ config.readyEvent, c = .waitForEvent (.str e) key.str? config.defaultTimeout

/-- The call of a screenshot; without a name that is a text there is none. -/
def shotCalls (directory : Path) (index : Nat) (name : Json) (fullPage : Option Json) :
    List PageCall :=
  match name with
  | .str n => [.screenshot (shotPath directory index n).text (fullPage.getD (.bool true))]
  | _ => []

theorem exists_screenshot_of_mem_shotCalls {directory : Path} {index : Nat} {name : Json}
    {fullPage : Option Json} {call : PageCall}
    (h : call ∈ shotCalls directory index name fullPage) :
    ∃ path full, call = .screenshot path full := by
  unfold shotCalls at h
  split at h
  · exact ⟨_, _, List.mem_singleton.mp h⟩
  · cases h

/-- The call of a step's capture, if its moment is this one. -/
def captureCalls (directory : Path) (index : Nat) (moment : Moment) (c : Cue) : List PageCall :=
  match c.extras.capture with
  | some k =>
    if k.moment = .str moment.word then shotCalls directory index k.name k.fullPage else []
  | none => []

/-- The call of a capture is one of a screenshot. -/
theorem exists_screenshot_of_mem {directory : Path} {index : Nat} {moment : Moment} {c : Cue}
    {call : PageCall} (h : call ∈ captureCalls directory index moment c) :
    ∃ path fullPage, call = .screenshot path fullPage := by
  unfold captureCalls at h
  split at h
  · split_ifs at h
    · exact exists_screenshot_of_mem_shotCalls h
    · cases h
  · cases h

/-- The pause before a step. -/
def delayCalls (c : Cue) : List PageCall :=
  ((c.extras.preDelay.filter (·.isTruthy)).map PageCall.pause).toList

/-- The calls that an action may make. -/
def ActionCall (config : RunConfig) (index : Nat) (c : Cue) (call : PageCall) : Prop :=
  match c.action with
  | .narration _ => False
  | .goto key => Opens config key call
  | .click _ anchor _ => Handles (selectorOf anchor.words) (.click (selectorOf anchor.words)) call
  | .fill _ anchor .. =>
    ∃ value, Handles (selectorOf anchor.words) (.fill (selectorOf anchor.words) value) call
  | .waitForEvent _ event timeout => call = .waitForEvent event none (.int timeout)
  | .expectVisible _ anchor timeout =>
    call = .waitVisible (selectorOf anchor.words) (.int timeout) ∨
      call = .count (selectorOf anchor.words)
  | .waitMs duration => call = .pause (.int duration)
  | .screenshot name _ fullPage => call ∈ shotCalls config.directory index name fullPage
  | .annotate .. => False

/-- The calls of an action between those of the captures before and after it. -/
def actionPlan (config : RunConfig) (index : Nat) (c : Cue) : Language PageCall :=
  {captureCalls config.directory index .before c} *
    (only (ActionCall config index c) * {captureCalls config.directory index .after c})

/-- The calls of a step in their order: a look at the page's URL, the pause before the step, and
its action between the captures. -/
def stepPlan (config : RunConfig) (index : Nat) (c : Cue) : Language PageCall :=
  {[.url]} * ({delayCalls c} * actionPlan config index c)

theorem exists_mem_actionPlan (config : RunConfig) (index : Nat) (c : Cue) :
    ∃ w, w ∈ actionPlan config index c :=
  ⟨_, Language.append_mem_mul rfl (Language.append_mem_mul (nil_mem_only _) rfl)⟩

/-- Something that a step needs of its configuration is not there: the path of the route it opens,
the variable whose value it enters, or a value to enter at all. -/
def Unset (config : RunConfig) (c : Cue) : Prop :=
  match c.action with
  | .goto key => config.path? key = .ok none
  | .fill _ _ _ (some name) _ => config.envValue? name = .ok none
  | .fill _ _ none none _ => True
  | _ => False

namespace Player

variable {ι σ : Type} (p : Player ι σ)

/-- Time can be counted from now on until it has passed. -/
def Counts (time : Json) : Prop :=
  ∃ n, time.asTime = .ok n ∧ ∀ t, p.page.Reads t → ∃ deadline, p.timing.after t n = .ok deadline ∧
    ∀ t', p.page.Reads t' → ∃ left, p.timing.left deadline t' = .ok left

/-- A time is counted until then, from a reading of the clock on. -/
def Deadline (time : Number) (deadline : ι) : Prop :=
  ∃ start, p.page.Reads start ∧ p.timing.after start time = .ok deadline

/-- The tries of an action that is given a time come to an end of their own. -/
def TriesEnd (time : Json) : Prop :=
  ∀ n deadline, time.asTime = .ok n → p.Deadline n deadline →
    ∀ (anchor verb : String) (act : Number → PageCall) (left : Int) (st st' : State σ),
      p.timeLeft deadline st = (.ok left, st') →
        (p.attempts anchor verb act deadline (p.tries left) left st').1 ≠ .ok none

/-- The page raises nothing but a browser's errors, and always tells its URL and the time. -/
structure Gentle : Prop where
  browser : ∀ c s f, (p.page.answer c s).1 = .error f → f.isBrowser = true
  url : ∀ s f, (p.page.answer .url s).1 ≠ .error f
  clock : ∀ s f, (p.page.clock s).1 ≠ .error f

/-- What it takes for a step's action to raise nothing but a browser's errors: its names are texts,
its URL can be built, its files are among some, its time can be counted, and its tries end. -/
def ActionSound (files : Path → Prop) (index : Nat) (c : Cue) : Prop :=
  match c.action with
  | .goto key => ∃ k, key = .str k ∧ ∀ path, Route.pathOf? p.config.routes k = some path →
      ∃ url, routeUrl p.config.baseUrl path p.config.tourMode = .ok url
  | .click _ _ timeout => p.Counts (timeout.getD (.num p.config.defaultTimeout)) ∧
      p.TriesEnd (timeout.getD (.num p.config.defaultTimeout))
  | .fill _ _ _ envName timeout => (∀ name ∈ envName, ∃ n, name = .str n) ∧
      p.Counts (timeout.getD (.num p.config.defaultTimeout)) ∧
      p.TriesEnd (timeout.getD (.num p.config.defaultTimeout))
  | .screenshot name .. => ∃ n, name = .str n ∧ files (shotPath p.config.directory index n)
  | .annotate .. => files (p.config.directory / "annotations.jsonl")
  | _ => True

/-- The same for all of a step. -/
structure StepSound (files : Path → Prop) (index : Nat) (c : Cue) : Prop where
  gentle : p.Gentle
  action : p.ActionSound files index c
  capture : ∀ k ∈ c.extras.capture,
    ∃ n, k.name = .str n ∧ files (shotPath p.config.directory index n)
  markup : c.extras.markup.isSome → files (p.config.directory / "annotations.jsonl")

/-- What is done with the image of a screenshot. -/
def keepShot (index : Nat) (name : String) (full : Json) (image : Text.Utf8.Bytes) :
    Play Stop σ Unit := do
  let path := shotPath p.config.directory index name
  onScene .raised (Act.file (Filing.write path image))
  note s!"  screenshot: {path}"
  update fun r => { r with shots := r.shots ++ [⟨name, path.text, index, full⟩] }

theorem shoot_str (index : Nat) (name : String) (fullPage : Option Json) :
    p.shoot index (.str name) fullPage =
      p.ask (.screenshot (shotPath p.config.directory index name).text
          (fullPage.getD (.bool true))) >>=
        p.keepShot index name (fullPage.getD (.bool true)) := rfl

/-- What is done about a fault of a try. -/
def retry (anchor verb : String) (again : Play Stop σ (Option Bool)) (f : Fault) :
    Play Stop σ (Option Bool) := do
  if f.isTimeout then return some false
  if !f.isBrowser then throw (.raised f)
  if !isTransient f then fail .error s!"{verb} failed for {anchor}: {f.firstLine}"
  log .debug s!"Retrying {verb} on {anchor} after transient error: {f.firstLine}"
  let _ : Unit ← p.ask (.pause (.num retryInterval))
  again

theorem attempts_succ (anchor verb : String) (act : Number → PageCall) (deadline : ι) (tries : Nat)
    (left : Int) :
    p.attempts anchor verb act deadline (tries + 1) left =
      if left ≤ 0 then pure (some false) else
        onFault (do return some (← p.tryOnce anchor act deadline left)) (p.retry anchor verb do
          p.attempts anchor verb act deadline tries (← p.timeLeft deadline)) := by
  rw [attempts]
  congr 1
  funext st
  rw [onFault_apply, Attempt.bind_apply, Attempt.bind_apply]
  simp only [Attempt.outcome]
  rcases p.tryOnce anchor act deadline left st with ⟨(⟨k, m⟩ | g) | x, st'⟩
  · rfl
  · rfl
  · rfl

/-- With no tries left it is the time that decides. -/
theorem attempts_zero (anchor verb : String) (act : Number → PageCall) (deadline : ι) (left : Int)
    (st : State σ) : p.attempts anchor verb act deadline 0 left st =
      (.ok (if left ≤ 0 then some false else none), st) := rfl

theorem retry_of_not_browser (anchor verb : String) (again : Play Stop σ (Option Bool)) {f : Fault}
    (h : f.isBrowser = false) : p.retry anchor verb again f = throw (.raised f) := by
  unfold retry
  simp only [not_isTimeout h, h]
  rfl

/-- The wait for a route that was opened. -/
def awaitReady (key : Json) : Play Stop σ Unit :=
  match p.config.readyEvent with
  | some e => p.awaitEvent (.str e) p.config.defaultTimeout key.str?
  | none => pure ()

/-- A step's action between its captures. -/
def act (tourId : String) (index : Nat) (c : Cue) : Play Stop σ Unit := do
  p.capture index .before c.extras.capture
  p.perform tourId index c
  p.capture index .after c.extras.capture

/-- The same behind what is spoken. -/
def actSpoken (tourId : String) (index : Nat) (c : Cue) : Play Stop σ Unit :=
  match c.extras.narration.filter (·.isTruthy) with
  | some t => do
    speak index t .extras
    p.act tourId index c
  | none => p.act tourId index c

/-- The same behind the pause before a step. -/
def actDelayed (tourId : String) (index : Nat) (c : Cue) : Play Stop σ Unit :=
  match c.extras.preDelay.filter (·.isTruthy) with
  | some t => do
    note s!"  preDelayMs: {t.words}"
    p.ask (.pause t)
    p.actSpoken tourId index c
  | none => p.actSpoken tourId index c

theorem playCue_eq (tourId : String) (index : Nat) (c : Cue) :
    p.playCue tourId index c = (do
      let url : String ← p.ask .url
      note s!"[STEP {index}] type={c.action.kind} key={c.describe} url={url}"
      log .info s!"Step {index}: {c.action.kind} {c.describe}"
      guarded (p.actDelayed tourId index c)
      match c.extras.markup with
      | some m => p.queueMarkup tourId index (c.markupLabel index) m
      | none => pure ()) := rfl

end Player

/-- Where the directory of a run is there, adding a job writes no more than its file. -/
theorem Ready.append_job {directory : Path} {files : Path → Prop} {fs : Store}
    (hd : Ready directory files fs) (j : Job) :
    j.append (directory / "annotations.jsonl") fs =
      Filing.append (directory / "annotations.jsonl") (Text.Utf8.encode j.line.toList) fs := by
  have hparent : (directory / "annotations.jsonl").parent = directory :=
    Path.parent_join_name _ _ (by decide +kernel)
  unfold Job.append
  rw [hparent, Attempt.bind_ok (Filing.makeDirectories_of_hasDirectory hd.directory)]

namespace Behaves

variable {ι σ α : Type} {p : Player ι σ} {files : Path → Prop} {unset sound : Prop}
  {K : PageCall → Prop}

theorem kindly {x : Except KindFault α} (h : sound → ∃ y, x = .ok y) :
    Behaves p files 1 unset sound (kindly x : Play Stop σ α) := by
  cases x with
  | ok y => exact .pure y
  | error g => exact decided (fun m hm => by cases hm) fun _ _ hs => by cases (h hs).choose_spec

theorem yields_kindly {x : Except KindFault α} {y : α}
    (h : Yields (Run.kindly x : Play Stop σ α) y) : x = .ok y := by
  obtain ⟨st, st', h⟩ := h
  cases x <;> cases h
  rfl

theorem reads_of_yields {cause : Fault → Stop} {t : ι} (h : Yields (p.now cause) t) :
    p.page.Reads t := by
  obtain ⟨st, st', h⟩ := h
  refine ⟨st.scene.page, ?_⟩
  change ((p.page.clock st.scene.page).1.mapError _, _) = _ at h
  rcases hc : (p.page.clock st.scene.page).1 with e | t'
  · rw [hc] at h
    cases h
  · rw [hc] at h
    cases h
    rfl

theorem decided_number {x : Except NumberFault α} (h : sound → ∃ y, x = .ok y) :
    Behaves p files 1 unset sound
      (Attempt.decided (x.mapError fun g => Stop.raised (.number g)) : Play Stop σ α) := by
  cases x with
  | ok y => exact decided (fun m hm => by cases hm) fun g hg => by cases hg
  | error g => exact decided (fun m hm => by cases hm) fun _ _ hs => by cases (h hs).choose_spec

theorem yields_decided {x : Except Stop α} {y : α}
    (h : Yields (Attempt.decided x : Play Stop σ α) y) : x = .ok y := by
  obtain ⟨st, st', h⟩ := h
  cases h
  rfl

/-- How much time is left is known where the clock can be read and the time be counted. -/
theorem timeLeft {deadline : ι} (hg : sound → p.Gentle)
    (h : sound → ∀ t, p.page.Reads t → ∃ left, p.timing.left deadline t = .ok left) :
    Behaves p files (only K) unset sound (p.timeLeft deadline) :=
  .seq (.quiet (now fun hs => (hg hs).clock)) fun t ht =>
    .quiet (decided_number fun hs => h hs t (reads_of_yields ht))

theorem write {q : Path} (hq : sound → files q) (content : Text.Utf8.Bytes) :
    Behaves p files 1 unset sound
      (onScene .raised (Act.file (Filing.write q content)) : Play Stop σ Unit) := by
  refine file (fun fs hd => hd.of_sameDirectories (Filing.write_sameDirectories fs q content))
    fun hs fs hd => ?_
  obtain ⟨fs', hw, -⟩ := Filing.write_of_writable (hd.writable q (hq hs)) content
  exact ⟨(), by rw [hw]⟩

theorem keepShot (index : Nat) (name : String) (full : Json) (image : Text.Utf8.Bytes)
    (hf : sound → files (shotPath p.config.directory index name)) :
    Behaves p files 1 unset sound (p.keepShot index name full image) :=
  (write hf image).bind_quiet fun _ _ => (note _).bind_quiet fun _ _ =>
    update fun _ => ⟨rfl, rfl, rfl⟩

/-- A screenshot is one call, and what is wrong with it comes of that call if of the browser. -/
theorem shoot (index : Nat) (name : Json) (fullPage : Option Json) (hg : sound → p.Gentle)
    (hn : sound → ∃ n, name = .str n ∧ files (shotPath p.config.directory index n)) :
    Behaves p files {shotCalls p.config.directory index name fullPage} unset sound
        (p.shoot index name fullPage) ∧
      Late p {shotCalls p.config.directory index name fullPage} (p.shoot index name fullPage) := by
  cases name with
  | str n =>
    have hf : sound → files (shotPath p.config.directory index n) := fun hs => by
      obtain ⟨m, hm, hf⟩ := hn hs
      cases hm
      exact hf
    rw [Player.shoot_str]
    have hk (image : Text.Utf8.Bytes) : Behaves p files 1 unset sound
        (p.keepShot index n (fullPage.getD (.bool true)) image) := keepShot index n _ image hf
    exact ⟨(ask _ fun hs s g => (hg hs).browser _ s g).bind_quiet fun image _ => hk image,
      (Late.ask _).bind hk⟩
  | _ =>
    have hr (g : Fault) : Behaves p files 1 unset sound (throw (.raised g) : Play Stop σ Unit) :=
      raise fun hs => by obtain ⟨_, h, _⟩ := hn hs; cases h
    exact ⟨hr _, .of_quiet (hr _)⟩

/-- A capture that fails over the browser is passed over. -/
theorem capture (index : Nat) (moment : Moment) (c : Cue) (hg : sound → p.Gentle)
    (hn : sound → ∀ k ∈ c.extras.capture,
      ∃ n, k.name = .str n ∧ files (shotPath p.config.directory index n)) :
    Behaves p files {captureCalls p.config.directory index moment c} unset sound
      (p.capture index moment c.extras.capture) := by
  unfold captureCalls Player.capture
  cases hc : c.extras.capture with
  | none => exact pure ()
  | some k =>
    dsimp only
    by_cases hm : k.moment = .str moment.word
    · rw [if_pos hm, if_neg (by simpa using hm)]
      have hk : k ∈ c.extras.capture := hc
      have hshoot : Behaves p files _ unset sound (p.shoot index k.name k.fullPage) ∧ _ :=
        shoot index k.name k.fullPage hg fun hs => hn hs k hk
      refine .onFault_late hshoot.1 hshoot.2 (fun g hg => ?_) fun g hg => ?_
      · simp only [hg]
        exact (log _ _).bind_quiet fun _ _ => note _
      · simp only [hg]
        rfl
    · rw [if_neg hm, if_pos (by simpa using hm)]
      exact pure ()

theorem queueMarkup (tourId : String) (index : Nat) (label : String) (m : MarkupOf Json)
    (hf : sound → files (p.config.directory / "annotations.jsonl")) :
    Behaves p files 1 unset sound (p.queueMarkup tourId index label m) := by
  unfold Player.queueMarkup
  refine .quiet_bind (of_still (fun _ => ⟨.refl _, rfl, rfl⟩) (fun _ _ h => by cases h)
    fun _ _ h => by cases h) (fun st _ => ?_) ⟨[], rfl⟩
  refine .quiet_bind (file (fun fs hd => ?_) fun hs fs hd => ?_) (fun _ _ => ?_) ⟨[], rfl⟩
  · rw [hd.append_job]
    exact hd.of_sameDirectories (Filing.append_sameDirectories fs _ _)
  · obtain ⟨fs', all, hw, -⟩ := Filing.append_of_writable (hd.writable _ (hf hs))
      (Text.Utf8.encode (Job.line _).toList)
    exact ⟨(), by rw [hd.append_job, hw]⟩
  · refine .bind_quiet ?_ fun _ _ => note _
    exact update fun _ => ⟨rfl, rfl, rfl⟩

theorem awaitEvent {name : Json} {timeout : Number} {route : Option String} (hg : sound → p.Gentle)
    (hk : K (.waitForEvent name route timeout)) :
    Behaves p files (only K) unset sound (p.awaitEvent name timeout route) := by
  unfold Player.awaitEvent
  refine .onFault (call hk fun hs => (hg hs).browser _) (fun g hb => ?_) fun g hb => ?_
  · split_ifs
    · exact .quiet (fail fun h => by cases h)
    · exact .quiet (raise fun _ => hb)
  · simp only [not_isTimeout hb]
    rfl

theorem openRoute {key : Json} (hg : sound → p.Gentle) (hu : p.config.path? key = .ok none → unset)
    (hk : ∀ call, Opens p.config key call → K call)
    (hs : sound → ∃ k, key = .str k ∧ ∀ path, Route.pathOf? p.config.routes k = some path →
      ∃ url, routeUrl p.config.baseUrl path p.config.tourMode = .ok url) :
    Behaves p files (only K) unset sound (p.openRoute key) := by
  rw [Player.openRoute]
  refine .seq (.quiet (kindly fun h => ?_)) fun found hfound => ?_
  · obtain ⟨k, rfl, -⟩ := hs h
    exact ⟨_, rfl⟩
  have hp := yields_kindly hfound
  cases found with
  | none => exact .quiet (fail fun _ => hu hp)
  | some path =>
    refine .seq (.quiet (decided (fun m hm => ?_) fun g he h => ?_)) fun url hurl => ?_
    · cases hr : routeUrl p.config.baseUrl path p.config.tourMode <;> rw [hr] at hm <;> cases hm
    · obtain ⟨k, rfl, hurl⟩ := hs h
      obtain ⟨url, hurl⟩ := hurl path (by injection hp)
      rw [hurl] at he
      cases he
    have hr : routeUrl p.config.baseUrl path p.config.tourMode = .ok url := by
      have hy := yields_decided hurl
      cases hr : routeUrl p.config.baseUrl path p.config.tourMode <;> rw [hr] at hy <;> cases hy
      rfl
    have hready : Behaves p files (only K) unset sound (p.awaitReady key) := by
      unfold Player.awaitReady
      cases he : p.config.readyEvent with
      | none => exact .quiet (pure ())
      | some e => exact awaitEvent hg (hk _ (.inr ⟨e, he, rfl⟩))
    refine .seq (.onFault (call (hk _ (.inl ⟨path, url, hp, hr, rfl⟩))
      fun h => (hg h).browser _) (fun g hb => ?_) fun g hb => ?_) fun status _ => ?_
    · simp only [hb]
      exact .quiet (fail fun h => by cases h)
    · simp only [hb]
      rfl
    cases status with
    | none => exact hready
    | some n =>
      dsimp only
      split_ifs
      · exact .seq (.quiet (fail fun h => by cases h)) fun _ _ => hready
      · exact hready

theorem giveUp {anchor verb timeout : String} (hg : sound → p.Gentle)
    (hk : K (.count (selectorOf anchor))) :
    Behaves p files (only K) unset sound (p.giveUp anchor verb timeout : Play Stop σ α) := by
  unfold Player.giveUp
  refine .seq (call hk fun h => (hg h).browser _) fun n _ => .quiet ?_
  split_ifs
  · exact fail fun h => by cases h
  · exact fail fun h => by cases h

theorem tryOnce {anchor : String} {act : Number → PageCall} {deadline : ι} {left : Int}
    (hg : sound → p.Gentle) (hk : ∀ call, Handles (selectorOf anchor) act call → K call)
    (hd : sound → ∀ t, p.page.Reads t → ∃ left, p.timing.left deadline t = .ok left) :
    Behaves p files (only K) unset sound (p.tryOnce anchor act deadline left) := by
  unfold Player.tryOnce
  refine .seq (call (hk _ (.inl ⟨_, rfl⟩)) fun h => (hg h).browser _) fun _ _ => ?_
  refine .seq (timeLeft hg hd) fun left _ => ?_
  split_ifs
  · exact .quiet (pure false)
  · exact .seq (call (hk _ (.inr (.inl ⟨_, rfl⟩))) fun h => (hg h).browser _) fun _ _ =>
      .quiet (pure true)

theorem attempts {anchor verb : String} {act : Number → PageCall} {deadline : ι}
    (hg : sound → p.Gentle) (hk : ∀ call, Handles (selectorOf anchor) act call → K call)
    (hd : sound → ∀ t, p.page.Reads t → ∃ left, p.timing.left deadline t = .ok left)
    (tries : Nat) (left : Int) :
    Behaves p files (only K) unset sound (p.attempts anchor verb act deadline tries left) := by
  induction tries generalizing left with
  | zero => exact .quiet (pure _)
  | succ tries ih =>
    -- each try waits and acts; between two of them stand a pause and a look at the clock
    rw [Player.attempts_succ]
    split_ifs
    · exact .quiet (pure _)
    refine .onFault (.seq (tryOnce hg hk hd) fun _ _ => .quiet (pure _)) (fun g hb => ?_)
      fun g hb => Player.retry_of_not_browser p anchor verb _ hb
    have hrest (line : String) : Behaves p files (only K) unset sound (do
        Run.log .debug line
        let _ : Unit ← p.ask (.pause (.num retryInterval))
        p.attempts anchor verb act deadline tries (← p.timeLeft deadline)) :=
      .seq (.quiet (log _ _)) fun _ _ =>
        .seq (call (hk _ (.inr (.inr (.inl rfl)))) fun h => (hg h).browser _) fun _ _ =>
          .seq (timeLeft hg hd) fun left _ => ih left
    unfold Player.retry
    simp only [hb, Bool.not_true, Bool.false_eq_true, if_false]
    split_ifs
    · exact .quiet (pure _)
    · exact .seq (.quiet (fail fun h => by cases h)) fun _ _ => hrest _
    · exact hrest _

theorem interact {anchor verb : String} {act : Number → PageCall} {timeout : Option Json}
    (hg : sound → p.Gentle) (hk : ∀ call, Handles (selectorOf anchor) act call → K call)
    (hc : sound → p.Counts (timeout.getD (.num p.config.defaultTimeout)))
    (he : sound → p.TriesEnd (timeout.getD (.num p.config.defaultTimeout))) :
    Behaves p files (only K) unset sound (p.interact anchor verb act timeout) := by
  rw [Player.interact]
  refine .seq (.quiet (now fun h => (hg h).clock)) fun start hstart => ?_
  refine .seq (.quiet (kindly fun h => ?_)) fun time htime => ?_
  · obtain ⟨n, hn, -⟩ := hc h
    exact ⟨n, hn⟩
  have ht := yields_kindly htime
  refine .seq (.quiet (decided_number fun h => ?_)) fun deadline hdeadline => ?_
  · obtain ⟨n, hn, ha⟩ := hc h
    rw [ht] at hn
    cases hn
    obtain ⟨deadline, hd, -⟩ := ha start (reads_of_yields hstart)
    exact ⟨deadline, hd⟩
  have hl : sound → ∀ t, p.page.Reads t → ∃ left, p.timing.left deadline t = .ok left := by
    intro h t hr
    obtain ⟨n, hn, ha⟩ := hc h
    rw [ht] at hn
    cases hn
    obtain ⟨deadline', hd, hl⟩ := ha start (reads_of_yields hstart)
    have hy := yields_decided hdeadline
    rw [hd] at hy
    cases hy
    exact hl t hr
  have hfrom : p.Deadline time deadline := by
    refine ⟨start, reads_of_yields hstart, ?_⟩
    have hy := yields_decided hdeadline
    cases ha : p.timing.after start time <;> rw [ha] at hy <;> cases hy
    rfl
  -- whether the tries end depends on the state in which the time was counted
  refine fun st => (timeLeft hg hl st).seq fun left st' htime => ?_
  refine (attempts hg hk hl (p.tries left) left st').seq fun done st'' hdone => ?_
  cases done with
  | none =>
    have hends (h : sound) : interruption.isBrowser = true :=
      absurd (congrArg Prod.fst hdone)
        (he h time deadline ht hfrom anchor verb act left st st' htime)
    exact quiet (raise hends) st''
  | some done =>
    cases done with
    | true => exact quiet (pure ()) st''
    | false => exact giveUp hg (hk _ (.inr (.inr (.inr rfl)))) st''

theorem fillValue {anchor : String} {value envName : Option Json}
    (hu : (∃ name ∈ envName, p.config.envValue? name = .ok none) ∨
      envName = none ∧ value = none → unset)
    (hn : sound → (∀ name ∈ envName, ∃ n, name = .str n)) :
    Behaves p files 1 unset sound (p.fillValue anchor value envName) := by
  cases envName with
  | some name =>
    refine quiet_bind (kindly fun h => ?_) (fun found hfound => ?_) ⟨[], rfl⟩
    · obtain ⟨n, rfl⟩ := hn h name rfl
      unfold RunConfig.envValue?
      cases p.config.env with
      | none => exact ⟨_, rfl⟩
      | some given => exact ⟨_, rfl⟩
    · have hf := yields_kindly hfound
      cases found with
      | none => exact fail fun _ => hu (.inl ⟨name, rfl, hf⟩)
      | some t => exact pure _
  | none =>
    cases value with
    | none => exact fail fun _ => hu (.inr ⟨rfl, rfl⟩)
    | some v => exact pure v

theorem speak (index : Nat) (text : Json) (source : SpokenBy) :
    Behaves p files 1 unset sound (Player.speak index text source : Play Stop σ Unit) :=
  update fun _ => ⟨rfl, rfl, rfl⟩

/-- An action makes no calls but its own. -/
theorem perform (tourId : String) (index : Nat) (c : Cue) (hg : sound → p.Gentle)
    (hs : sound → p.ActionSound files index c) :
    Behaves p files (only (ActionCall p.config index c)) (Unset p.config c) sound
      (p.perform tourId index c) := by
  obtain ⟨a, x⟩ := c
  cases a with
  | narration message =>
    exact .quiet (.bind_quiet (speak index message .narration) fun _ _ => note _)
  | goto key => exact openRoute hg id (fun _ h => h) hs
  | click label anchor timeout =>
    exact interact hg (fun _ h => h) (fun h => (hs h).1) fun h => (hs h).2
  | fill label anchor value envName timeout =>
    refine .seq (.quiet (fillValue (fun h => ?_) fun h => (hs h).1)) fun v _ => ?_
    · obtain ⟨name, hn, hv⟩ | ⟨rfl, rfl⟩ := h
      · cases hn
        exact hv
      · trivial
    · exact interact hg (fun _ h => ⟨v, h⟩) (fun h => (hs h).2.1) fun h => (hs h).2.2
  | waitForEvent label event timeout => exact awaitEvent hg rfl
  | expectVisible label anchor timeout =>
    refine .onFault (call (.inl rfl) fun h => (hg h).browser _) (fun g hb => ?_) fun g hb => ?_
    · split_ifs
      · exact giveUp hg (.inr rfl)
      · exact .quiet (raise fun _ => hb)
    · rw [if_neg (by simp [not_isTimeout hb])]
  | waitMs duration => exact call rfl fun h => (hg h).browser _
  | screenshot name label fullPage =>
    refine (shoot index name fullPage hg hs).1.mono ?_ id
    rintro w rfl
    exact fun call h => h
  | annotate label instructions target =>
    exact .quiet (queueMarkup tourId index _ _ hs)

section

variable {tourId : String} {index : Nat} {c : Cue} (hs : sound → p.StepSound files index c)

include hs

theorem act : Behaves p files (actionPlan p.config index c) (Unset p.config c) sound
    (p.act tourId index c) := by
  have hg : sound → p.Gentle := fun h => (hs h).gentle
  have hcapture (moment : Moment) : Behaves p files
      {captureCalls p.config.directory index moment c} (Unset p.config c) sound
      (p.capture index moment c.extras.capture) :=
    capture index moment c hg fun h => (hs h).capture
  have haction := perform tourId index c hg fun h => (hs h).action
  exact (hcapture .before).bind (fun _ _ => haction.bind (fun _ _ => hcapture .after) ⟨_, rfl⟩)
    ⟨_, Language.append_mem_mul (nil_mem_only _) rfl⟩

theorem actSpoken : Behaves p files (actionPlan p.config index c) (Unset p.config c) sound
    (p.actSpoken tourId index c) := by
  unfold Player.actSpoken
  cases c.extras.narration.filter (·.isTruthy) with
  | none => exact act hs
  | some t =>
    exact (speak index t .extras).quiet_bind (fun _ _ => act hs) (exists_mem_actionPlan _ _ _)

theorem actDelayed : Behaves p files ({delayCalls c} * actionPlan p.config index c)
    (Unset p.config c) sound (p.actDelayed tourId index c) := by
  unfold Player.actDelayed delayCalls
  cases c.extras.preDelay.filter (·.isTruthy) with
  | none =>
    have hone : ({[]} : Language PageCall) = 1 := rfl
    refine (actSpoken hs).mono (fun w hw => ?_) id
    rwa [Option.map_none, Option.toList_none, hone, one_mul]
  | some t =>
    obtain ⟨w, hw⟩ := exists_mem_actionPlan p.config index c
    exact (note _).quiet_bind (fun _ _ => (ask _ fun h s g => (hs h).gentle.browser _ s g).bind
      (fun _ _ => actSpoken hs) ⟨w, hw⟩) ⟨_, Language.append_mem_mul rfl hw⟩

/-- A step makes the calls of its parts in their order. -/
theorem playCue : Behaves p files (stepPlan p.config index c) (Unset p.config c) sound
    (p.playCue tourId index c) := by
  obtain ⟨w, hw⟩ := exists_mem_actionPlan p.config index c
  have hw : ∃ w, w ∈ {delayCalls c} * actionPlan p.config index c :=
    ⟨_, Language.append_mem_mul rfl hw⟩
  rw [Player.playCue_eq]
  refine (ask _ fun h s g => (hs h).gentle.browser _ s g).bind (fun url _ => ?_) hw
  refine (note _).quiet_bind (fun _ _ => ?_) hw
  refine (log _ _).quiet_bind (fun _ _ => ?_) hw
  refine .bind_quiet (.guarded (actDelayed hs)) fun _ _ => ?_
  cases hm : c.extras.markup with
  | none => exact pure ()
  | some m => exact queueMarkup tourId index _ m fun h => (hs h).markup (by rw [hm]; rfl)

end

end Behaves

section

variable {ι σ : Type} {p : Player ι σ} {tourId label : String} {index : Nat} {st : State σ}
  {g : Fault}

theorem cause_of_onScene {α : Type} {w : Act σ α}
    (h : ((onScene .raised w : Play Stop σ α) st).1 = .error (.raised g)) :
    (w st.scene).1 = .error g := by
  change (w st.scene).1.mapError Stop.raised = _ at h
  cases hw : (w st.scene).1 with
  | ok x => rw [hw] at h; cases h
  | error e => rw [hw] at h; cases h; rfl

theorem cause_of_file {α : Type} {w : Filing α}
    (h : ((onScene .raised (Act.file w) : Play Stop σ α) st).1 = .error (.raised g)) :
    (w st.scene.files).1 = .error g := by
  have hw : (w st.scene.files).1.mapError id = .error g := cause_of_onScene h
  cases hx : (w st.scene.files).1 with
  | ok x => rw [hx] at hw; cases hw
  | error e => rw [hx] at hw; exact hw

theorem isBrowser_of_append {j : Job} {file : Path} {fs : Store}
    (h : (j.append file fs).1 = .error g) : g.isBrowser = false := by
  have hm {α : Type} {x : Except FileFault α} (hx : x.mapError .file = .error g) :
      g.isBrowser = false := by
    cases x <;> cases hx
    rfl
  rcases Attempt.bind_cause h with h | ⟨_, fs', -, h⟩
  · exact hm h
  · have hc : (fs'.append file (Text.Utf8.encode j.line.toList)).mapError .file = .error g := by
      unfold Filing.append Attempt.change at h
      split at h
      · cases h
      · next he => cases h; exact he
    exact hm hc

theorem isBrowser_of_queueMarkup {m : MarkupOf Json}
    (h : (p.queueMarkup tourId index label m st).1 = .error (.raised g)) :
    g.isBrowser = false := by
  unfold Player.queueMarkup at h
  rcases Attempt.bind_cause h with h | ⟨_, _, -, h⟩
  · cases h
  rcases Attempt.bind_cause h with h | ⟨_, _, -, h⟩
  · exact isBrowser_of_append (cause_of_file h)
  · rcases Attempt.bind_cause h with h | ⟨_, _, -, h⟩ <;> cases h

/-- Only a page that does not tell its URL lets an error of the browser out of a step. -/
theorem isBrowser_of_playCue {c : Cue}
    (h : (p.playCue tourId index c st).1 = .error (.raised g)) :
    g.isBrowser = false ∨ (p.page.answer .url st.scene.page).1 = .error g := by
  rw [Player.playCue_eq] at h
  rcases Attempt.bind_cause h with h | ⟨url, _, -, h⟩
  · exact .inr (cause_of_onScene h)
  rcases Attempt.bind_cause h with h | ⟨_, _, -, h⟩
  · cases h
  rcases Attempt.bind_cause h with h | ⟨_, _, -, h⟩
  · cases h
  rcases Attempt.bind_cause h with h | ⟨_, _, -, h⟩
  · exact .inl (isBrowser_of_guarded h)
  · left
    cases hm : c.extras.markup with
    | none => rw [hm] at h; cases h
    | some m => rw [hm] at h; exact isBrowser_of_queueMarkup h

end

end Run

end Walkthrough
