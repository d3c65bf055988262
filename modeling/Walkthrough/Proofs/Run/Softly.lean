import Walkthrough.Proofs.Run.Lockstep
/-!
Two runs side by side, of a tour and of the same tour without its captures. Each step does the same
in both but for the calls of its captures, if these are soft: what fails of them fails over the
browser, and the page overlooks them.
-/

namespace Walkthrough

def Step.withoutCapture (s : Step) : Step :=
  { s with extras := { s.extras with capture := none } }

/-- A tour without the captures of its steps. -/
def Tour.withoutCaptures (t : Tour) : Tour := { t with steps := t.steps.map Step.withoutCapture }

theorem Tour.cues_withoutCaptures (t : Tour) :
    t.withoutCaptures.cues = t.steps.map fun s => s.withoutCapture.cue := List.map_map

/-- Of some calls others are left when calls of a kind are left out. -/
inductive Without (K : PageCall → Prop) : List Called → List Called → Prop
  | nil : Without K [] []
  | keep (c : Called) {cs cs' : List Called} (h : Without K cs cs') :
    Without K (c :: cs) (c :: cs')
  | drop {c : Called} {cs cs' : List Called} (hc : K c.call) (h : Without K cs cs') :
    Without K (c :: cs) cs'

namespace Without

variable {K : PageCall → Prop} {cs cs' ds ds' : List Called}

theorem refl (cs : List Called) : Without K cs cs := by
  induction cs with
  | nil => exact .nil
  | cons c cs ih => exact .keep c ih

theorem append (h : Without K cs cs') (h' : Without K ds ds') :
    Without K (cs ++ ds) (cs' ++ ds') := by
  induction h with
  | nil => exact h'
  | keep c _ ih => exact .keep c ih
  | drop hc _ ih => exact .drop hc ih

end Without

namespace Run

namespace Player

variable {ι σ : Type} (p : Player ι σ)

/-- A call that is made for a capture of a tour. -/
def CaptureCall (t : Tour) (call : PageCall) : Prop :=
  ∃ i s moment, t.steps[i]? = some s ∧ call ∈ captureCalls p.config.directory i moment s.cue

/-- A call that a run of a tour makes for something else than a capture. -/
def OtherCall (t : Tour) (call : PageCall) : Prop :=
  call = .addInitScript ∨ ∃ (i : Nat) (s : Step), t.steps[i]? = some s ∧
    (call = .url ∨ call ∈ delayCalls s.cue ∨ ActionCall p.config i s.cue call)

/-- A file that the image of a capture is kept in. -/
def CaptureFile (t : Tour) (file : Path) : Prop :=
  ∃ (i : Nat) (s : Step), ∃ k ∈ s.extras.capture, t.steps[i]? = some s ∧
    file = shotPath p.config.directory i k.name

/-- What a run does first at a step. -/
def announce (index : Nat) (c : Cue) : Play Stop σ Unit := do
  let url : String ← p.ask .url
  note s!"[STEP {index}] type={c.action.kind} key={c.describe} url={url}"
  log .info s!"Step {index}: {c.action.kind} {c.describe}"

/-- What a step does before its action and its captures. -/
def introduce (index : Nat) (c : Cue) : Play Stop σ Unit := do
  match c.extras.preDelay.filter (·.isTruthy) with
  | some t =>
    note s!"  preDelayMs: {t.words}"
    p.ask (.pause t)
  | none => pure ()
  match c.extras.narration.filter (·.isTruthy) with
  | some t => speak index t .extras
  | none => pure ()

/-- What a step does after its action and its captures. -/
def markUp (tourId : String) (index : Nat) (c : Cue) : Play Stop σ Unit :=
  match c.extras.markup with
  | some m => p.queueMarkup tourId index (c.markupLabel index) m
  | none => pure ()

theorem actDelayed_eq (tourId : String) (index : Nat) (c : Cue) :
    p.actDelayed tourId index c = p.introduce index c >>= fun _ => p.act tourId index c := by
  unfold actDelayed introduce actSpoken
  cases c.extras.preDelay.filter (·.isTruthy) <;>
    cases c.extras.narration.filter (·.isTruthy) <;> simp only [bind_assoc, pure_bind]

theorem playCue_eq_parts (tourId : String) (index : Nat) (c : Cue) :
    p.playCue tourId index c = (do
      p.announce index c
      guarded (do
        p.introduce index c
        p.act tourId index c)
      p.markUp tourId index c) := by
  rw [playCue_eq, actDelayed_eq, announce, bind_assoc]
  exact congrArg (p.ask .url >>= ·) (funext fun _ => (bind_assoc _ _ _).symm)

/-- What a step does until it comes to its capture of a moment. -/
def approach (tourId : String) (index : Nat) (c : Cue) : Moment → Play Stop σ Unit
  | .before => do
    p.announce index c
    p.introduce index c
  | .after => do
    p.announce index c
    p.introduce index c
    p.capture index .before c.extras.capture
    p.perform tourId index c

/-- The capture of a moment is due in a state: the run has come to the step, and the step to that
moment. -/
def CaptureDue (t : Tour) (sc : Scene σ) (index : Nat) (c : Cue) (moment : Moment)
    (st : State σ) : Prop :=
  ∃ first s, p.Begins t sc first ∧ Reaches p t.id 0 t.cues first index c s ∧
    p.approach t.id index c moment (p.clocked s) = (.ok (), st)

/-- If the page cannot make the capture of a moment in a state, it is an error of the browser. -/
def CaptureSoft (index : Nat) (c : Cue) (moment : Moment) (st : State σ) : Prop :=
  ∀ call ∈ captureCalls p.config.directory index moment c,
    ∀ f, (p.page.answer call st.scene.page).1 = .error f → f.isBrowser = true

/-- A screenshot whose file can be written comes to what the page answers. -/
theorem shoot_apply {index : Nat} {st : State σ} {name : String} (fullPage : Option Json)
    {call : PageCall}
    (hcall : call ∈ shotCalls p.config.directory index (.str name) fullPage)
    (hw : st.scene.files.Writable (shotPath p.config.directory index name)) :
    ∃ s, p.shoot index (.str name) fullPage st =
        (((p.page.answer call st.scene.page).1.map fun _ => ()).mapError .raised, s) ∧
      s.scene.page = (p.page.answer call st.scene.page).2 ∧ SameStory s.result st.result ∧
      st.scene.files.SameDirectories s.scene.files := by
  obtain rfl := List.mem_singleton.mp hcall
  rw [shoot_str, Attempt.bind_apply]
  have hask : p.ask (.screenshot (shotPath p.config.directory index name).text
      (fullPage.getD (.bool true))) st = ((p.page.answer _ st.scene.page).1.mapError .raised,
        { st with scene := { st.scene with page := (p.page.answer _ st.scene.page).2 } }) := rfl
  rw [hask]
  rcases p.page.answer (.screenshot (shotPath p.config.directory index name).text
      (fullPage.getD (.bool true))) st.scene.page with ⟨f | image, page⟩
  · exact ⟨_, rfl, rfl, .refl _, .refl _⟩
  · obtain ⟨fs, hwrite, hgains⟩ := Filing.write_of_writable hw image
    have hkeep : (onScene .raised (Act.file (Filing.write (shotPath p.config.directory index name)
        image)) : Play Stop σ Unit) { st with scene := { st.scene with page := page } } =
          (.ok (), { st with scene := { st.scene with page := page, files := fs } }) := by
      unfold onScene
      rw [Attempt.focus_apply, Act.file_apply, hwrite]
      rfl
    dsimp only [Except.mapError]
    unfold keepShot
    rw [Attempt.bind_ok hkeep]
    exact ⟨_, rfl, rfl, ⟨rfl, rfl, rfl, rfl, rfl⟩, hgains.sameDirectories⟩

/-- A capture whose file can be written makes one call at its moment, and none at the other; an
error of the browser is passed over. -/
theorem capture_apply {index : Nat} {st : State σ} {s : Step} (moment : Moment)
    (hw : ∀ k ∈ s.extras.capture,
      st.scene.files.Writable (shotPath p.config.directory index k.name)) :
    captureCalls p.config.directory index moment s.cue = [] ∧
        p.capture index moment s.cue.extras.capture st = (.ok (), st) ∨
      ∃ call s', captureCalls p.config.directory index moment s.cue = [call] ∧
        s'.scene.page = (p.page.answer call st.scene.page).2 ∧ SameStory s'.result st.result ∧
        st.scene.files.SameDirectories s'.scene.files ∧
        ((∀ f, (p.page.answer call st.scene.page).1 = .error f → f.isBrowser = true) →
          p.capture index moment s.cue.extras.capture st = (.ok (), s')) := by
  have hcue : s.cue.extras.capture = s.extras.capture.map fun k =>
      ⟨.str k.moment.word, .str k.name, k.fullPage.map .bool⟩ := rfl
  unfold captureCalls capture
  rw [hcue]
  cases hk : s.extras.capture with
  | none => exact .inl ⟨rfl, rfl⟩
  | some k =>
    rw [Option.map_some]
    dsimp only
    by_cases hm : Json.str k.moment.word = .str moment.word
    · rw [if_pos hm, if_neg (by simpa using hm)]
      obtain ⟨call, hcall⟩ : ∃ call, shotCalls p.config.directory index (.str k.name)
          (k.fullPage.map .bool) = [call] := ⟨_, rfl⟩
      obtain ⟨s₁, hshoot, hpage, hstory, hsame⟩ := p.shoot_apply (k.fullPage.map .bool)
        (hcall ▸ List.mem_singleton_self call) (hw k hk)
      rw [onFault_apply, hshoot]
      rcases hanswer : (p.page.answer call st.scene.page).1 with f | image
      · cases hb : f.isBrowser with
        | true =>
          simp only [Except.map, Except.mapError, hb]
          refine .inr ⟨call, _, hcall, ?_, ?_, ?_, fun _ => rfl⟩
          · exact hpage
          · exact hstory
          · exact hsame
        | false =>
          refine .inr ⟨call, s₁, hcall, hpage, hstory, hsame, fun h => ?_⟩
          rw [h f hanswer] at hb
          cases hb
      · exact .inr ⟨call, s₁, hcall, hpage, hstory, hsame, fun _ => rfl⟩
    · rw [if_neg hm, if_pos (by simpa using hm)]
      exact .inl ⟨rfl, rfl⟩

theorem recordCue_eq (tourId : String) (index : Nat) (c : Cue) :
    p.recordCue tourId index c = (do
      let start ← p.now id
      let r ← Attempt.outcome (p.playCue tourId index c)
      p.conclude index c start r) := by
  funext st
  rw [recordCue_apply, Attempt.bind_apply]
  rcases p.now id st with ⟨f | start, s⟩ <;> rfl

end Player

/-- What a step calls is of the kind it counts as, and the file of its capture is among some. -/
structure Accounted {ι σ : Type} (p : Player ι σ) (files : Path → Prop)
    (captures others : PageCall → Prop) (index : Nat) (s : Step) : Prop where
  capture : ∀ moment, ∀ c ∈ captureCalls p.config.directory index moment s.cue, captures c
  file : ∀ k ∈ s.extras.capture, files (shotPath p.config.directory index k.name)
  url : others .url
  delay : ∀ c ∈ delayCalls s.cue, others c
  action : ∀ c, ActionCall p.config index s.cue c → others c

/-- What two actions come to of which the first may make captures and the second does not: they end
in the same way, in states that are alike, and made the same calls but for those of the captures. -/
structure Softly {ε α σ : Type} (p : Player Int σ) (files : Path → Prop)
    (captures : PageCall → Prop) (R : Int → σ → σ → Prop) (st st' : State σ)
    (x y : Except ε α × State σ) : Prop where
  ends : x.1 = y.1
  alike : ∃ d, Alike p.config.directory files (R d) x.2 y.2
  calls : ∃ cs cs', p.page.Leads st.scene.page cs x.2.scene.page ∧
    p.page.Leads st'.scene.page cs' y.2.scene.page ∧ Without captures cs cs'

namespace Softly

section

variable {ε α β σ : Type} {p : Player Int σ} {files : Path → Prop} {captures : PageCall → Prop}
  {R : Int → σ → σ → Prop} {st st' : State σ}

theorem of_together {d : Int} {x y : Except ε α × State σ}
    (h : Together p files (R d) Eq st st' x y) : Softly p files captures R st st' x y := by
  obtain ⟨hends, halike, cs, hl, hl'⟩ := h
  exact ⟨hends.eq, ⟨d, halike⟩, cs, cs, hl, hl', .refl cs⟩

theorem trans {s s' : State σ} {x y : Except ε α × State σ} {cs cs' : List Called}
    (hl : p.page.Leads st.scene.page cs s.scene.page)
    (hl' : p.page.Leads st'.scene.page cs' s'.scene.page) (hw : Without captures cs cs')
    (h : Softly p files captures R s s' x y) : Softly p files captures R st st' x y := by
  obtain ⟨hends, halike, ds, ds', hm, hm', hw'⟩ := h
  exact ⟨hends, halike, _, _, hl.trans hm, hl'.trans hm', hw.append hw'⟩

theorem bind {a b : Play ε σ α} {f g : α → Play ε σ β}
    (h : Softly p files captures R st st' (a st) (b st'))
    (hf : ∀ x s s' d, a st = (.ok x, s) → Alike p.config.directory files (R d) s s' →
      Softly p files captures R s s' (f x s) (g x s')) :
    Softly p files captures R st st' ((a >>= f) st) ((b >>= g) st') := by
  obtain ⟨hends, ⟨d, halike⟩, cs, cs', hl, hl', hw⟩ := h
  rcases ha : a st with ⟨r, s⟩
  rcases hb : b st' with ⟨r', s'⟩
  rw [ha, hb] at hends halike
  rw [ha] at hl
  rw [hb] at hl'
  cases hends
  cases r with
  | ok x =>
    rw [Attempt.bind_ok ha, Attempt.bind_ok hb]
    exact trans hl hl' hw (hf x s s' d ha halike)
  | error e =>
    rw [Attempt.bind_error ha, Attempt.bind_error hb]
    exact ⟨rfl, ⟨d, halike⟩, cs, cs', hl, hl', hw⟩

/-- What both do in lockstep first, they do softly what they do after it. -/
theorem after {α' : Type} {V : α → α' → Prop} {a : Play ε σ α} {b : Play ε σ α'}
    {f : α → Play ε σ β} {g : α' → Play ε σ β} {d : Int} (h : Lockstep p files (R d) V a b)
    (hst : Alike p.config.directory files (R d) st st')
    (hf : ∀ x y s s', a st = (.ok x, s) → Alike p.config.directory files (R d) s s' →
      Softly p files captures R s s' (f x s) (g y s')) :
    Softly p files captures R st st' ((a >>= f) st) ((b >>= g) st') := by
  obtain ⟨hends, halike, cs, hl, hl'⟩ := h st st' hst
  rcases ha : a st with ⟨r, s⟩
  rcases hb : b st' with ⟨r', s'⟩
  rw [ha, hb] at hends halike
  rw [ha] at hl
  rw [hb] at hl'
  cases hends with
  | ok _ =>
    rw [Attempt.bind_ok ha, Attempt.bind_ok hb]
    exact trans hl hl' (.refl cs) (hf _ _ s s' ha halike)
  | error e =>
    rw [Attempt.bind_error ha, Attempt.bind_error hb]
    exact ⟨rfl, ⟨d, halike⟩, cs, cs, hl, hl', .refl cs⟩

theorem guarded {a b : Play Stop σ α} (h : Softly p files captures R st st' (a st) (b st')) :
    Softly p files captures R st st' (guarded a st) (guarded b st') := by
  obtain ⟨hends, ⟨d, halike⟩, hcalls⟩ := h
  rw [Run.guarded, Run.guarded, onFault_apply, onFault_apply]
  rcases ha : a st with ⟨r, s⟩
  rcases hb : b st' with ⟨r', s'⟩
  rw [ha, hb] at hends halike hcalls
  cases hends
  rcases r with (⟨why, m⟩ | f) | x
  · exact ⟨rfl, ⟨d, halike⟩, hcalls⟩
  · dsimp only
    split_ifs
    · exact ⟨rfl, ⟨d, halike⟩, hcalls⟩
    · exact ⟨rfl, ⟨d, halike⟩, hcalls⟩
    · exact ⟨rfl, ⟨d, halike⟩, hcalls⟩
  · exact ⟨rfl, ⟨d, halike⟩, hcalls⟩

theorem outcome {ε' : Type} {a b : Play ε σ α}
    (h : Softly p files captures R st st' (a st) (b st')) :
    Softly p files captures R st st' ((Attempt.outcome a : Play ε' σ (Except ε α)) st)
      ((Attempt.outcome b : Play ε' σ (Except ε α)) st') :=
  ⟨congrArg Except.ok h.ends, h.alike, h.calls⟩

end

variable {σ : Type} {p : Player Int σ} {files : Path → Prop} {captures others : PageCall → Prop}
  {R : Int → σ → σ → Prop} {d : Int} {st st' : State σ} {tourId : String} {index : Nat} {s : Step}

variable (ho : p.page.Overlooks captures others R) (hs : Accounted p files captures others index s)
  (hst : Alike p.config.directory files (R d) st st')

include ho hs hst

/-- A capture that is soft leaves no more than a screenshot, and a clock that has moved. -/
theorem capture {moment : Moment} (hsoft : p.CaptureSoft index s.cue moment st) :
    Softly p files captures R st st' (p.capture index moment s.cue.extras.capture st)
      ((pure () : Play Stop σ Unit) st') := by
  have hcalls := hs.capture moment
  unfold Player.CaptureSoft at hsoft
  obtain ⟨-, hnone⟩ | ⟨call, s₁, hcall, hpage, hstory, hsame, hpassed⟩ :=
    p.capture_apply moment fun k hk => hst.ready.writable _ (hs.file k hk)
  · rw [hnone]
    exact of_together (Lockstep.pure rfl st st' hst)
  rw [hcall] at hcalls hsoft
  have hkind := hcalls call (List.mem_singleton_self call)
  rw [hpassed (hsoft call (List.mem_singleton_self call))]
  -- the second run stays where it was
  obtain ⟨d', hd'⟩ := ho.overlooked d _ _ call hst.page hkind
  rw [← hpage] at hd'
  refine ⟨rfl, ⟨d', hst.of_first hd' hstory hsame⟩,
    [⟨call, faultOf? (p.page.answer call st.scene.page).1⟩], [], ?_, .here _, .drop hkind .nil⟩
  rw [hpage]
  exact .call call (.here _)

/-- A step's action is done softly among its captures. -/
theorem act (ht : p.timing = .exact) (hbefore : p.CaptureSoft index s.cue .before st)
    (hafter : ∀ s₁ s₂, p.capture index .before s.cue.extras.capture st = (.ok (), s₁) →
      p.perform tourId index s.cue s₁ = (.ok (), s₂) → p.CaptureSoft index s.cue .after s₂) :
    Softly p files captures R st st' (p.act tourId index s.cue st)
      (p.act tourId index s.withoutCapture.cue st') := by
  refine bind (capture ho hs hst hbefore) fun _ s₁ s₁' d hs₁ hst => ?_
  refine after (Lockstep.perform ho ht hs.action) hst fun _ _ s₂ s₂' hs₂ hst => ?_
  exact capture ho hs hst (hafter s₁ s₂ hs₁ hs₂)

end Softly

namespace Lockstep

variable {ε σ : Type} {p : Player Int σ} {files : Path → Prop} {captures others : PageCall → Prop}
  {R : Int → σ → σ → Prop} {d : Int} {index : Nat} {s : Step}

section

variable (ho : p.page.Overlooks captures others R) (hs : Accounted p files captures others index s)

include ho hs

theorem announce : Lockstep p files (R d) Eq (p.announce index s.cue)
    (p.announce index s.withoutCapture.cue) :=
  (ask ho hs.url).seq fun _ => (note _ _).seq fun _ => logged _ _ _

theorem introduce : Lockstep p files (R d) Eq (p.introduce index s.cue)
    (p.introduce index s.withoutCapture.cue) := by
  change Lockstep p files (R d) Eq (p.introduce index s.cue) (p.introduce index s.cue)
  have hpause := hs.delay
  unfold delayCalls at hpause
  have hspeak : Lockstep p files (R d) Eq
      (match s.cue.extras.narration.filter (·.isTruthy) with
        | some t => Player.speak index t .extras
        | none => Pure.pure () : Play Stop σ Unit)
      (match s.cue.extras.narration.filter (·.isTruthy) with
        | some t => Player.speak index t .extras
        | none => Pure.pure ()) := by
    cases s.cue.extras.narration.filter (·.isTruthy) with
    | none => exact pure rfl
    | some t => exact speak _ _ _
  unfold Player.introduce
  cases hdelay : s.cue.extras.preDelay.filter (·.isTruthy) with
  | none => exact hspeak
  | some t =>
    rw [hdelay] at hpause
    exact (note _ _).seq fun _ => (ask ho (hpause _ (List.mem_singleton_self _))).seq
      fun _ => hspeak

end

theorem markUp {tourId : String} : Lockstep p files (R d) Eq (p.markUp tourId index s.cue)
    (p.markUp tourId index s.withoutCapture.cue) := by
  change Lockstep p files (R d) Eq (p.markUp tourId index s.cue) (p.markUp tourId index s.cue)
  unfold Player.markUp
  cases s.cue.extras.markup with
  | none => exact pure rfl
  | some m => exact queueMarkup

variable (ho : p.page.Overlooks captures others R)

include ho

/-- How long a step took is not the same in both runs. -/
theorem record {start start' : Int} {passed : Bool} : Lockstep p files (R d) Eq
    (p.record index s.cue start passed) (p.record index s.withoutCapture.cue start' passed) := by
  unfold Player.record
  refine (now ho _).bind fun t t' _ => update fun r r' hr => ?_
  refine ⟨hr.tourId, ?_, hr.failure, hr.transcript, hr.jobs⟩
  simp only [List.map_append, hr.records, List.map_cons, List.map_nil]
  rfl

theorem conclude {start start' : Int} (r : Except Stop Unit) : Lockstep p files (R d) Eq
    (p.conclude index s.cue start r) (p.conclude index s.withoutCapture.cue start' r) := by
  have hfail (f : Failure) : Lockstep p files (R d) Eq
      (Run.update fun r => { r with failure := some f } : Play Fault σ Unit)
      (Run.update fun r => { r with failure := some f }) :=
    update fun r r' hr => ⟨hr.tourId, hr.records, rfl, hr.transcript, hr.jobs⟩
  rcases r with (⟨why, m⟩ | f) | ⟨⟩
  · exact (hfail _).seq fun _ => (record ho).seq fun _ => (note _ _).seq fun _ =>
      (logged _ _ _).seq fun _ => pure rfl
  · exact (hfail _).seq fun _ => (record ho).seq fun _ => (note _ _).seq fun _ => throw _
  · exact (record ho).seq fun _ => pure rfl

end Lockstep

namespace Softly

variable {σ : Type} {p : Player Int σ} {files : Path → Prop} {captures others : PageCall → Prop}
  {R : Int → σ → σ → Prop} {d : Int} {st st' : State σ} {tourId : String} {index : Nat}
  (ho : p.page.Overlooks captures others R) (ht : p.timing = .exact)
  (hst : Alike p.config.directory files (R d) st st')

include ho ht hst

section

variable {s : Step} (hs : Accounted p files captures others index s)

include hs

/-- A step whose captures are soft when they are due is played softly. -/
theorem playCue (hsoft : ∀ moment s₁, p.approach tourId index s.cue moment st = (.ok (), s₁) →
      p.CaptureSoft index s.cue moment s₁) :
    Softly p files captures R st st' (p.playCue tourId index s.cue st)
      (p.playCue tourId index s.withoutCapture.cue st') := by
  rw [Player.playCue_eq_parts, Player.playCue_eq_parts]
  refine after (Lockstep.announce ho hs) hst fun _ _ s₁ s₁' hs₁ hst => ?_
  refine bind (guarded ?_) fun _ s₄ s₄' d _ hst => of_together (Lockstep.markUp s₄ s₄' hst)
  refine after (Lockstep.introduce ho hs) hst fun _ _ s₂ s₂' hs₂ hst => ?_
  refine act ho hs hst ht (hsoft .before s₂ ?_) fun s₃ s₄ hs₃ hs₄ => hsoft .after s₄ ?_
  · rw [Player.approach, Attempt.bind_ok hs₁, hs₂]
  · rw [Player.approach, Attempt.bind_ok hs₁, Attempt.bind_ok hs₂, Attempt.bind_ok hs₃, hs₄]

theorem recordCue (hsoft : ∀ moment s₁,
      p.approach tourId index s.cue moment (p.clocked st) = (.ok (), s₁) →
        p.CaptureSoft index s.cue moment s₁) :
    Softly p files captures R st st' (p.recordCue tourId index s.cue st)
      (p.recordCue tourId index s.withoutCapture.cue st') := by
  rw [Player.recordCue_eq, Player.recordCue_eq]
  refine after (Lockstep.now ho id) hst fun start start' s₁ s₁' hs₁ hst => ?_
  have hclocked : p.clocked st = s₁ := congrArg Prod.snd hs₁
  rw [hclocked] at hsoft
  exact bind (outcome (playCue ho ht hst hs hsoft)) fun r s₂ s₂' d _ hst =>
    of_together (Lockstep.conclude ho r s₂ s₂' hst)

end

/-- Steps whose captures are soft when they are due are played softly one after the other. -/
theorem playCues {k : Nat} {steps : List Step}
    (hs : ∀ i s, steps[i]? = some s → Accounted p files captures others (k + i) s)
    (hsoft : ∀ i c s moment s₁, Reaches p tourId k (steps.map Step.cue) st i c s →
      p.approach tourId i c moment (p.clocked s) = (.ok (), s₁) → p.CaptureSoft i c moment s₁) :
    Softly p files captures R st st' (p.playCues tourId k (steps.map Step.cue) st)
      (p.playCues tourId k (steps.map fun s => s.withoutCapture.cue) st') := by
  induction steps generalizing k st st' d with
  | nil => exact of_together (Lockstep.pure rfl st st' hst)
  | cons s steps ih =>
    rw [List.map_cons, List.map_cons, Player.playCues, Player.playCues]
    have hrecord : Softly p files captures R st st' (p.recordCue tourId k s.cue st)
        (p.recordCue tourId k s.withoutCapture.cue st') :=
      recordCue ho ht hst (hs 0 s rfl) fun moment s₁ => hsoft k s.cue st moment s₁ (.here _ _ _ _)
    refine bind hrecord fun goes s₁ s₁' d hs₁ hst => ?_
    cases goes with
    | false => exact of_together (Lockstep.pure rfl s₁ s₁' hst)
    | true =>
      refine ih hst (fun i s hi => ?_) fun i c s₂ moment s₃ hr => ?_
      · rw [Nat.add_right_comm]
        exact hs (i + 1) s hi
      · exact hsoft i c s₂ moment s₃ (.later hs₁ hr)

end Softly

end Run

end Walkthrough
