import Walkthrough.Proofs.Run.Causes
/-!
The parts of a step, each with what is heard of the page in it and how it comes to fail; and the
kind of failure that a failing step of a run is recorded with.
-/

namespace Walkthrough.Run

variable {ι σ : Type} {p : Player ι σ} {s : Step}

/-- A page is not sent anywhere while an element is acted on. -/
theorem Handles.ne_goto {selector : String} {act : Number → PageCall} {c : PageCall}
    (h : Handles selector act c) (hact : ActsOn selector act) (url : String) (state : LoadState)
    (time : Number) : c ≠ .goto url state time := by
  rintro rfl
  obtain ⟨left, h⟩ | ⟨left, h⟩ | h | h := h
  · cases h
  · obtain rfl | ⟨value, rfl⟩ := hact <;> cases h
  · cases h
  · cases h

/-- A step that counts its element behind a wait that came to nothing has given it up, unless the
count was answered with a fault. -/
theorem GaveUp.ended {anchor : String} (front : List (Heard ι)) {hs : List (Heard ι)}
    {e : Heard ι} {stop : Stop} (hg : GaveUp (selectorOf anchor) hs stop)
    (ha : s.action.anchor? = some anchor)
    (hq : ∀ e' ∈ front ++ [e], e'.refusesNavigation = false)
    (he : ∀ n, e.TimesOut (selectorOf anchor) ∨
      p.UsedUp s (front ++ [e] ++ [counted (selectorOf anchor) (.ok n)]) e) :
    Ended p s (front ++ [e] ++ hs) stop := by
  have hgives (n : Int) :
      p.GivesUp s n (front ++ [e] ++ [counted (selectorOf anchor) (.ok n)]) :=
    ⟨anchor, ha, front, e, rfl, he n⟩
  have hq (r : Except Fault Int) : ∀ e' ∈ front ++ [e] ++ [counted (selectorOf anchor) r],
      e'.refusesNavigation = false := by
    intro e' he'
    obtain he' | he' := List.mem_append.mp he'
    · exact hq e' he'
    · rw [List.mem_singleton.mp he']
      rfl
  cases hg with
  | unknown f => exact .broken _ (hq _) (.fault rfl rfl)
  | absent message => exact .givenUp (hq _) (hgives 0) rfl
  | @present n hn message => exact .givenUp (hq _) (hgives n) (by rw [if_neg hn]; rfl)

/-- An action on an element that fails has given the element up or was broken off. -/
theorem Interacted.ended {anchor : String} {act : Number → PageCall} {timeout : Option Number}
    {hs : List (Heard ι)} {stop : Stop} (ha : s.action.anchor? = some anchor)
    (ht : s.action.patience? = some timeout) (hact : ActsOn (selectorOf anchor) act)
    (h : Interacted p.timing (selectorOf anchor) act
      (.num (timeout.getD p.config.defaultTimeout)) hs (.error stop)) : Ended p s hs stop := by
  have hq : ∀ e ∈ hs, e.refusesNavigation = false := by
    rintro (a | t) he
    · exact Heard.refusesNavigation_answer ((h.handles a he).ne_goto hact) _
    · rfl
  cases h with
  | untimed start he => cases he
  | endless hn he => exact .broken [] hq (.number _ _)
  | uncounted hn hd he => exact .broken [_] hq (.number _ _)
  | broken hn hd hl hr =>
    obtain ⟨front, e, rfl, he⟩ := hr.breaks
    rw [← List.append_assoc] at hq ⊢
    exact .broken _ hq he
  | @gaveUp start deadline t n left hs hs' stop hn hd hl hr hg =>
    cases hn
    obtain ⟨front, e, hfront, he⟩ := hr.exists_timesOut hact hl
    have hback : [.reading start, .reading t] ++ hs = .reading start :: front ++ [e] := by
      change .reading start :: (.reading t :: hs) = _
      rw [hfront]
      rfl
    rw [hback] at hq ⊢
    refine hg.ended _ ha (fun e' he' => hq e' (List.mem_append_left _ he')) fun n => he.imp_right ?_
    rintro ⟨t', l, rfl, hl', hpos⟩
    exact ⟨timeout, ht, start, deadline, t', l, rfl, hd, rfl, hl', hpos⟩

/-- What is heard in a part of a step tells why the part fails if it does. -/
def Explained (p : Player ι σ) (s : Step) (st : State σ) (x : Except Stop Unit × State σ) : Prop :=
  ∃ hs, p.page.Tells st.scene.page hs x.2.scene.page ∧
    ∀ stop, x.1 = .error stop → Ended p s hs stop

theorem Explained.behind {st st' : State σ} {lead : List (Heard ι)}
    {x : Except Stop Unit × State σ} (h : Explained p s st' x)
    (ht : p.page.Tells st.scene.page lead st'.scene.page) (hl : ∀ e ∈ lead, e.Plain) :
    Explained p s st x := by
  obtain ⟨hs, htells, hended⟩ := h
  exact ⟨_, ht.trans htells, fun stop hstop => (hended stop hstop).behind hl⟩

namespace Player

/-- A call that fails by its fault. -/
theorem ask_explained {c : PageCall} {x : Except Stop Unit × State σ} {st : State σ}
    (hc : ∀ url state time, c ≠ .goto url state time) {f : Fault}
    (ha : (p.page.answer c st.scene.page).1 = .error f)
    (hx : x.2.scene.page = (p.page.answer c st.scene.page).2)
    (hk : ∀ stop, x.1 = .error stop → stop.kind = f.failureKind) : Explained p s st x := by
  refine ⟨[.answer ⟨c, .error f⟩], ?_, fun stop hstop => .of_fault hc (hk stop hstop)⟩
  rw [hx]
  exact .one c ha

/-- A call that is all there is. -/
theorem call_explained {c : PageCall} {x : Except Stop Unit × State σ} {st : State σ}
    (hc : ∀ url state time, c ≠ .goto url state time)
    (hx : x.1 = ((p.page.answer c st.scene.page).1.map fun _ => ()).mapError .raised)
    (hpage : x.2.scene.page = (p.page.answer c st.scene.page).2) : Explained p s st x := by
  rcases ha : (p.page.answer c st.scene.page).1 with f | y
  · refine ask_explained hc ha hpage fun stop hstop => ?_
    rw [hx, ha] at hstop
    cases hstop
    rfl
  · refine ⟨[.answer ⟨c, .ok y⟩], ?_, fun stop hstop => ?_⟩
    · rw [hpage]
      exact .one c ha
    · rw [hx, ha] at hstop
      cases hstop

theorem awaitEvent_explained (name : Json) (timeout : Number) (route : Option String)
    (st : State σ) : Explained p s st (p.awaitEvent name timeout route st) := by
  unfold awaitEvent
  rw [onFault_apply]
  rcases ha : (p.page.answer (.waitForEvent name route timeout) st.scene.page).1 with f | ⟨⟩
  · rw [ask_error ha]
    dsimp only
    split_ifs with hf
    · exact ask_explained (by simp) ha rfl fun stop hstop => by
        cases hstop
        simp [Stop.kind, Fault.failureKind, hf]
    · exact ask_explained (by simp) ha rfl fun stop hstop => by
        cases hstop
        rfl
  · rw [ask_ok ha]
    exact ⟨_, .one _ ha, fun stop hstop => by cases hstop⟩

theorem openRoute_of_unknown {key : String} (h : Route.pathOf? p.config.routes key = none)
    (st : State σ) :
    ∃ m, p.openRoute (.str key) st = (.error (.failed .configuration m), st) := by
  have hkey : (kindly (p.config.path? (.str key)) : Play Stop σ (Option String)) st =
      (.ok none, st) := by
    rw [← h]
    rfl
  unfold openRoute
  rw [Attempt.bind_ok hkey]
  exact ⟨_, rfl⟩

theorem openRoute_explained (hg : p.Gentle) {key path url : String}
    (hpath : Route.pathOf? p.config.routes key = some path)
    (hurl : routeUrl p.config.baseUrl path p.config.tourMode = .ok url) (st : State σ) :
    Explained p s st (p.openRoute (.str key) st) := by
  have hkey : (kindly (p.config.path? (.str key)) : Play Stop σ (Option String)) st =
      (.ok (some path), st) := by
    rw [← hpath]
    rfl
  have hdecided : (Attempt.decided ((routeUrl p.config.baseUrl path p.config.tourMode).mapError
      .raised) : Play Stop σ String) st = (.ok url, st) := by
    rw [hurl]
    rfl
  unfold openRoute
  rw [Attempt.bind_ok hkey]
  dsimp only
  rw [Attempt.bind_ok hdecided, Attempt.bind_apply, onFault_apply]
  rcases ha : (p.page.answer (.goto url .parsed p.config.navigationTimeout) st.scene.page).1
    with f | status
  · rw [ask_error ha]
    dsimp only
    rw [if_pos (hg.browser _ _ f ha)]
    refine ⟨_, .one _ ha, fun stop hstop => ?_⟩
    cases hstop
    exact .unopened [] (by simp) rfl rfl
  · rw [ask_ok ha]
    have hready : Explained p s (p.asked (.goto url .parsed p.config.navigationTimeout) st)
        (p.awaitReady (.str key) (p.asked (.goto url .parsed p.config.navigationTimeout) st)) := by
      unfold awaitReady
      cases p.config.readyEvent with
      | none => exact ⟨[], .nothing _, fun stop hstop => by cases hstop⟩
      | some event => exact awaitEvent_explained ..
    cases status with
    | none =>
      refine hready.behind (.one _ ha) fun e he => ?_
      obtain rfl := List.mem_singleton.mp he
      exact ⟨rfl, rfl, fun _ _ h => by cases h⟩
    | some n =>
      dsimp only
      by_cases hn : 400 ≤ n
      · rw [if_pos hn]
        refine ⟨_, .one _ ha, fun stop hstop => ?_⟩
        cases hstop
        exact .unopened [] (by simp) (decide_eq_true hn) rfl
      · rw [if_neg hn]
        refine hready.behind (.one _ ha) fun e he => ?_
        obtain rfl := List.mem_singleton.mp he
        exact ⟨rfl, decide_eq_false hn, fun _ _ h => by cases h⟩

theorem interact_explained (hc : p.page.TellsTime) {anchor : String} {act : Number → PageCall}
    {timeout : Option Number} (hf : p.GoesForward (timeout.getD p.config.defaultTimeout))
    (ha : s.action.anchor? = some anchor) (ht : s.action.patience? = some timeout)
    (hact : ActsOn (selectorOf anchor) act) (verb : String) (st : State σ) :
    Explained p s st (p.interact anchor verb act (timeout.map .num) st) := by
  have htime : (timeout.map Json.num).getD (.num p.config.defaultTimeout) =
      .num (timeout.getD p.config.defaultTimeout) := Option.getD_map ..
  have hends : p.TriesEnd ((timeout.map Json.num).getD (.num p.config.defaultTimeout)) := by
    rw [htime]
    exact hf.triesEnd rfl hc
  obtain ⟨hs, htells, hheard⟩ := interact_tells hc hends anchor verb act st
  rw [htime] at hheard
  refine ⟨hs, htells, fun stop hstop => ?_⟩
  rw [hstop] at hheard
  exact hheard.ended ha ht hact

/-- The value of a variable is asked for first when a step enters it. -/
theorem fillValue_of_env {name : String} {found : Option String}
    (h : p.config.envValue? (.str name) = .ok found) (anchor : String) (value : Option Json)
    (st : State σ) :
    (∃ t, found = some t ∧ p.fillValue anchor value (some (.str name)) st = (.ok (.str t), st)) ∨
      found = none ∧ ∃ m, p.fillValue anchor value (some (.str name)) st =
        (.error (.failed .configuration m), st) := by
  have hkind : (kindly (p.config.envValue? (.str name)) : Play Stop σ (Option String)) st =
      (.ok found, st) := by
    rw [h]
    rfl
  unfold fillValue
  dsimp only
  rw [Attempt.bind_ok hkind]
  cases found with
  | none => exact .inr ⟨rfl, _, rfl⟩
  | some t => exact .inl ⟨t, rfl, rfl⟩

theorem envValue?_str (config : RunConfig) (name : String) :
    ∃ found, config.envValue? (.str name) = .ok found := by
  unfold RunConfig.envValue?
  cases config.env with
  | none => exact ⟨_, rfl⟩
  | some given => exact ⟨_, rfl⟩

/-- A wait for an element that comes to a timeout gives it up. -/
theorem expectVisible_explained {anchor : String} (timeout : Int)
    (ha : s.action.anchor? = some anchor) (st : State σ) :
    Explained p s st (onFault (p.ask (.waitVisible (selectorOf anchor) (.int timeout))) (fun f =>
      if f.isTimeout then p.giveUp anchor "expectVisible" (toString timeout)
      else throw (.raised f)) st) := by
  rw [onFault_apply]
  rcases hw : (p.page.answer (.waitVisible (selectorOf anchor) (.int timeout)) st.scene.page).1
    with f | ⟨⟩
  · rw [ask_error hw]
    dsimp only
    split_ifs with hf
    · obtain ⟨hs, stop, htells, hgave, hstop⟩ := giveUp_tells (p := p) anchor "expectVisible"
        (toString timeout) (p.asked (.waitVisible (selectorOf anchor) (.int timeout)) st)
      refine ⟨_, (Page.Tells.one _ hw).trans htells, fun stop' hstop' => ?_⟩
      rw [hstop] at hstop'
      cases hstop'
      refine hgave.ended [] ha (fun e he => ?_) fun _ => .inl (.wait _ hf)
      rw [List.mem_singleton.mp he]
      rfl
    · exact ask_explained (by simp) hw rfl fun stop hstop => by
        cases hstop
        rfl
  · rw [ask_ok hw]
    exact ⟨_, .one _ hw, fun stop hstop => by cases hstop⟩

section

variable {files : Path → Prop} (tourId : String) (index : Nat) {st : State σ}

theorem queueMarkup_of_ready (hr : Ready p.config.directory files st.scene.files)
    (hf : files (p.config.directory / "annotations.jsonl")) (label : String) (m : MarkupOf Json) :
    ∃ st', p.queueMarkup tourId index label m st = (.ok (), st') ∧
      st'.scene.page = st.scene.page := by
  let shot := st.result.markedShot m.target
  let job : Job := ⟨tourId, index, label, shot, m.instructions⟩
  obtain ⟨fs, all, happend, -⟩ := Filing.append_of_writable (hr.writable _ hf)
    (Text.Utf8.encode job.line.toList)
  rw [← hr.append_job] at happend
  have hkeep : (onScene .raised (Act.file (job.append (p.config.directory / "annotations.jsonl"))) :
      Play Stop σ Unit) st = (.ok (), { st with scene := { st.scene with files := fs } }) := by
    unfold onScene
    rw [Attempt.focus_apply, Act.file_apply, happend]
    rfl
  have hget : (get : Play Stop σ (State σ)) st = (.ok st, st) := rfl
  unfold queueMarkup
  rw [Attempt.bind_ok hget, Attempt.bind_ok hkeep]
  exact ⟨_, rfl, rfl⟩

theorem capture_of_ready (hg : p.Gentle) (hr : Ready p.config.directory files st.scene.files)
    (hf : ∀ k ∈ s.extras.capture, files (shotPath p.config.directory index k.name))
    (moment : Moment) :
    ∃ hs st', p.capture index moment s.cue.extras.capture st = (.ok (), st') ∧
      p.page.Tells st.scene.page hs st'.scene.page ∧ (∀ e ∈ hs, e.Plain) ∧
      Ready p.config.directory files st'.scene.files := by
  obtain ⟨-, hnone⟩ | ⟨call, st', hcall, hpage, -, hsame, hpassed⟩ :=
    p.capture_apply moment fun k hk => hr.writable _ (hf k hk)
  · exact ⟨[], st, hnone, .nothing _, by simp, hr⟩
  · refine ⟨[.answer ⟨call, (p.page.answer call st.scene.page).1⟩], st',
      hpassed fun f hf => hg.browser _ _ f hf, ?_, fun e he => ?_, hr.of_sameDirectories hsame⟩
    · rw [hpage]
      exact .one call rfl
    · have hmem := List.mem_singleton_self call
      rw [← hcall] at hmem
      obtain ⟨path, fullPage, rfl⟩ := exists_screenshot_of_mem hmem
      rw [List.mem_singleton.mp he]
      exact Heard.plain_answer (by simp) (by simp) _

/-- A step begins with a look at the page's URL. -/
theorem announce_tells (hg : p.Gentle) (index : Nat) (c : Cue) (st : State σ) :
    ∃ e st', p.announce index c st = (.ok (), st') ∧
      p.page.Tells st.scene.page [e] st'.scene.page ∧ e.Plain ∧
      st'.scene.files = st.scene.files := by
  rcases hu : (p.page.answer .url st.scene.page).1 with f | url
  · exact absurd hu (hg.url _ f)
  · unfold announce
    rw [Attempt.bind_ok (ask_ok hu)]
    exact ⟨_, _, rfl, .one _ hu, Heard.plain_answer (by simp) (by simp) _, rfl⟩

/-- The pause before a step fails, or else it comes to its action. -/
theorem introduce_tells (index : Nat) (c : Cue) (st : State σ) :
    (∃ call ∈ delayCalls c, ∃ f st', p.introduce index c st = (.error (.raised f), st') ∧
      p.page.Tells st.scene.page [.answer ⟨call, .error f⟩] st'.scene.page) ∨
    ∃ hs st', p.introduce index c st = (.ok (), st') ∧
      p.page.Tells st.scene.page hs st'.scene.page ∧ (∀ e ∈ hs, e.Plain) ∧
      (∀ call ∈ delayCalls c, ∃ r, hs = [.answer ⟨call, .ok r⟩]) ∧
      st'.scene.files = st.scene.files := by
  unfold introduce delayCalls
  cases c.extras.preDelay.filter (·.isTruthy) with
  | none =>
    cases c.extras.narration.filter (·.isTruthy) with
    | none => exact .inr ⟨[], st, rfl, .nothing _, by simp, by simp, rfl⟩
    | some w => exact .inr ⟨[], _, rfl, .nothing _, by simp, by simp, rfl⟩
  | some t =>
    obtain ⟨st₁, hnote, hscene⟩ : ∃ st₁, (note s!"  preDelayMs: {t.words}" : Play Stop σ Unit) st =
      (.ok (), st₁) ∧ st₁.scene = st.scene := ⟨_, rfl, rfl⟩
    rw [← hscene]
    dsimp only
    rw [Attempt.bind_ok hnote]
    rcases ha : (p.page.answer (.pause t) st₁.scene.page).1 with f | ⟨⟩
    · rw [Attempt.bind_error (ask_error ha)]
      exact .inl ⟨.pause t, List.mem_singleton_self _, f, _, rfl, .one _ ha⟩
    · rw [Attempt.bind_ok (ask_ok ha)]
      have hplain : ∀ e ∈ [(.answer ⟨.pause t, .ok ()⟩ : Heard ι)], e.Plain := by
        intro e he
        rw [List.mem_singleton.mp he]
        exact Heard.plain_answer (by simp) (by simp) _
      have hpaused : ∀ call ∈ (Option.map PageCall.pause (some t)).toList,
          ∃ r, [(.answer ⟨.pause t, .ok ()⟩ : Heard ι)] = [.answer ⟨call, .ok r⟩] := by
        intro call hcall
        obtain rfl := List.mem_singleton.mp hcall
        exact ⟨_, rfl⟩
      cases c.extras.narration.filter (·.isTruthy) with
      | none => exact .inr ⟨_, _, rfl, .one _ ha, hplain, hpaused, rfl⟩
      | some w => exact .inr ⟨_, _, rfl, .one _ ha, hplain, hpaused, rfl⟩

theorem markUp_of_ready (hr : Ready p.config.directory files st.scene.files)
    (hf : files (p.config.directory / "annotations.jsonl")) (c : Cue) :
    ∃ st', p.markUp tourId index c st = (.ok (), st') ∧ st'.scene.page = st.scene.page := by
  unfold markUp
  cases c.extras.markup with
  | none => exact ⟨st, rfl, rfl⟩
  | some m => exact queueMarkup_of_ready tourId index hr hf ..

section

variable (hg : p.Gentle) (hw : s.action.WellFormed)
  (hf : ∀ timeout ∈ s.action.patience?, p.GoesForward (timeout.getD p.config.defaultTimeout))
  (hu : ∀ key path, s.action = .goto key → Route.pathOf? p.config.routes key = some path →
    ∃ url, routeUrl p.config.baseUrl path p.config.tourMode = .ok url)
  (hshots : ∀ name ∈ s.shotNames, files (shotPath p.config.directory index name))
  (hqueue : files (p.config.directory / "annotations.jsonl"))
  (hr : Ready p.config.directory files st.scene.files)

include hg hw hf hu hshots hqueue hr

/-- An action fails at once if the configuration lacks what it asks for, and else it is told why. -/
theorem perform_explained :
    p.config.Lacks s ∧
        (∃ m, p.perform tourId index s.cue st = (.error (.failed .configuration m), st)) ∨
      ¬p.config.Lacks s ∧ Explained p s st (p.perform tourId index s.cue st) := by
  obtain ⟨a, x⟩ := s
  cases a with
  | narration message => exact .inr ⟨id, [], .nothing _, fun stop hstop => by cases hstop⟩
  | goto key =>
    cases hpath : Route.pathOf? p.config.routes key with
    | none => exact .inl ⟨hpath, openRoute_of_unknown hpath st⟩
    | some path =>
      obtain ⟨url, hurl⟩ := hu key path rfl hpath
      refine .inr ⟨fun h : _ = none => ?_, openRoute_explained hg hpath hurl st⟩
      rw [hpath] at h
      cases h
  | click label anchor timeout =>
    exact .inr ⟨id, interact_explained hg.clock (hf timeout rfl) rfl rfl (.inl rfl) "click" st⟩
  | fill label anchor value envName timeout =>
    have hinteract (v : Json) : Explained p ⟨.fill label anchor value envName timeout, x⟩ st
        (p.interact anchor "fill" (.fill (selectorOf anchor) v) (timeout.map .num) st) :=
      interact_explained hg.clock (hf timeout rfl) rfl rfl (.inr ⟨v, rfl⟩) "fill" st
    cases envName with
    | none =>
      obtain ⟨v, rfl⟩ := Option.isSome_iff_exists.mp (hw.2.1.mpr rfl)
      exact .inr ⟨id, hinteract (.str v)⟩
    | some name =>
      obtain ⟨found, hfound⟩ := envValue?_str p.config name
      have hperform :
          p.perform tourId index (Step.cue ⟨.fill label anchor value (some name) timeout, x⟩) =
            p.fillValue anchor (value.map .str) (some (.str name)) >>= fun v =>
              p.interact anchor "fill" (.fill (selectorOf anchor) v) (timeout.map .num) := rfl
      obtain ⟨t, rfl, hvalue⟩ | ⟨rfl, m, hvalue⟩ :=
        fillValue_of_env hfound anchor (value.map .str) st
      · refine .inr ⟨fun h : _ = _ => ?_, ?_⟩
        · rw [hfound] at h
          cases h
        · rw [hperform, Attempt.bind_ok hvalue]
          exact hinteract _
      · refine .inl ⟨hfound, m, ?_⟩
        rw [hperform, Attempt.bind_error hvalue]
  | waitForEvent label event timeout => exact .inr ⟨id, awaitEvent_explained ..⟩
  | expectVisible label anchor timeout => exact .inr ⟨id, expectVisible_explained timeout rfl st⟩
  | waitMs duration =>
    refine .inr ⟨id, call_explained (c := .pause (.int duration)) (by simp) ?_ rfl⟩
    change (p.page.answer _ _).1.mapError Stop.raised = _
    cases (p.page.answer (.pause (.int duration)) st.scene.page).1 <;> rfl
  | screenshot name label fullPage =>
    have hn : name ∈ Step.shotNames ⟨.screenshot name label fullPage, x⟩ := by simp [Step.shotNames]
    obtain ⟨call, hcall⟩ : ∃ call, call ∈ shotCalls p.config.directory index (.str name)
        (fullPage.map .bool) := ⟨_, List.mem_singleton_self _⟩
    obtain ⟨s₁, hshoot, hpage, -⟩ := p.shoot_apply (fullPage.map .bool) hcall
      (hr.writable _ (hshots name hn))
    have hperform : p.perform tourId index (Step.cue ⟨.screenshot name label fullPage, x⟩) =
      p.shoot index (.str name) (fullPage.map .bool) := rfl
    rw [hperform, hshoot]
    refine .inr ⟨id, call_explained (c := call) ?_ rfl hpage⟩
    rw [List.mem_singleton.mp hcall]
    simp
  | annotate label instructions target =>
    obtain ⟨st', hqueued, hpage⟩ := queueMarkup_of_ready tourId index hr hqueue
      (Cue.markupLabel (Step.cue ⟨.annotate label instructions target, x⟩) index)
      ⟨.str instructions, target.map .str⟩
    have hperform : p.perform tourId index (Step.cue ⟨.annotate label instructions target, x⟩) st =
      (.ok (), st') := hqueued
    rw [hperform]
    refine .inr ⟨id, [], ?_, fun stop hstop => by cases hstop⟩
    rw [hpage]
    exact .nothing _

/-- The captures of a step neither make it fail nor hide why it does. -/
theorem act_explained :
    p.config.Lacks s ∧ (∃ hs m st', p.act tourId index s.cue st =
        (.error (.failed .configuration m), st') ∧
          p.page.Tells st.scene.page hs st'.scene.page ∧ ∀ e ∈ hs, e.Plain) ∨
      ¬p.config.Lacks s ∧ Explained p s st (p.act tourId index s.cue st) := by
  have hcapture : ∀ k ∈ s.extras.capture, files (shotPath p.config.directory index k.name) :=
    fun k hk => hshots k.name (by simp [Step.shotNames, Option.mem_def.mp hk])
  obtain ⟨before, st₁, hbefore, htells, hplain, hr₁⟩ :=
    capture_of_ready index hg hr hcapture .before
  have hb : Behaves p files (only (ActionCall p.config index s.cue)) (Unset p.config s.cue) False
      (p.perform tourId index s.cue) := .perform tourId index s.cue False.elim False.elim
  have hready := (hb st₁).ready hr₁
  unfold act
  rw [Attempt.bind_ok hbefore]
  obtain ⟨hlacks, m, hperform⟩ | ⟨hlacks, hexplained⟩ :=
    perform_explained tourId index hg hw hf hu hshots hqueue hr₁
  · rw [Attempt.bind_error hperform]
    exact .inl ⟨hlacks, before, m, st₁, rfl, htells, hplain⟩
  · refine .inr ⟨hlacks, .behind ?_ htells hplain⟩
    rcases hperform : p.perform tourId index s.cue st₁ with ⟨stop | ⟨⟩, st₂⟩
    · rw [hperform] at hexplained
      rw [Attempt.bind_error hperform]
      exact hexplained
    · rw [hperform] at hexplained hready
      obtain ⟨hs, htells₂, -⟩ := hexplained
      obtain ⟨after, st₃, hafter, htells₃, -, -⟩ := capture_of_ready index hg hready hcapture .after
      rw [Attempt.bind_ok hperform, hafter]
      exact ⟨_, htells₂.trans htells₃, fun stop hstop => by cases hstop⟩

/-- A step that fails does so over the configuration if its pause did not fail and the configuration
lacks what it asks for; and otherwise what is heard of the page last tells why. -/
theorem playCue_ended {stop : Stop}
    (he : (p.playCue tourId index s.cue st).1 = .error stop) :
    ∃ hs, p.page.Tells st.scene.page hs (p.playCue tourId index s.cue st).2.scene.page ∧
      (¬DelayFailed s.cue hs ∧ p.config.Lacks s ∧ (∀ e ∈ hs, e.Plain) ∧
          stop.kind = .configuration ∨
        (DelayFailed s.cue hs ∨ ¬p.config.Lacks s) ∧ Ended p s hs stop) := by
  obtain ⟨e₀, st₁, hann, htells₁, hplain₁, hfiles₁⟩ := announce_tells hg index s.cue st
  rw [playCue_eq_parts, Attempt.bind_ok hann, Attempt.bind_apply, guarded_eq_mapError] at he ⊢
  obtain ⟨call, hcall, f, st₂, hintro, htells₂⟩ |
    ⟨delay, st₂, hintro, htells₂, hplain₂, hdelay, hfiles₂⟩ := introduce_tells index s.cue st₁
  · -- the pause fails, and nothing of the action is heard
    rw [Attempt.bind_error hintro] at he ⊢
    cases he
    refine ⟨_, htells₁.trans htells₂, .inr ⟨.inl ⟨call, hcall, f, rfl⟩, ?_⟩⟩
    obtain ⟨t, -, rfl⟩ : ∃ t, _ ∧ PageCall.pause t = call := by simpa [delayCalls] using hcall
    have hended : Ended p s [.answer ⟨.pause t, .error f⟩] (.raised f) := .of_fault (by simp) rfl
    exact (hended.behind (by simpa using hplain₁)).guarded
  have hnotdelay (rest : List (Heard ι)) : ¬DelayFailed s.cue ([e₀] ++ delay ++ rest) := by
    rintro ⟨call, hcall, f, hf⟩
    obtain ⟨r, rfl⟩ := hdelay call hcall
    cases hf
  have hlead : ∀ e ∈ [e₀] ++ delay, e.Plain := by
    intro e he
    obtain he | he := List.mem_append.mp he
    · rw [List.mem_singleton.mp he]
      exact hplain₁
    · exact hplain₂ e he
  have hlead_tells := htells₁.trans htells₂
  have hr₂ : Ready p.config.directory files st₂.scene.files := by rwa [hfiles₂, hfiles₁]
  rw [Attempt.bind_ok hintro] at he ⊢
  obtain ⟨hlacks, hs₃, m, st₃, hact, htells₃, hplain₃⟩ | ⟨hlacks, hexplained⟩ :=
    act_explained tourId index hg hw hf hu hshots hqueue hr₂
  · rw [hact] at he ⊢
    cases he
    refine ⟨_, hlead_tells.trans htells₃, .inl ⟨hnotdelay hs₃, hlacks, fun e he => ?_, rfl⟩⟩
    exact (List.mem_append.mp he).elim (hlead e) (hplain₃ e)
  · have hb : Behaves p files (actionPlan p.config index s.cue) (Unset p.config s.cue) False
        (p.act tourId index s.cue) := .act False.elim
    have hready := (hb st₂).ready hr₂
    obtain ⟨hs₃, htells₃, hended⟩ := hexplained
    rcases hact : p.act tourId index s.cue st₂ with ⟨stop' | ⟨⟩, st₃⟩
    · rw [hact] at he htells₃ hended
      cases he
      exact ⟨_, hlead_tells.trans htells₃,
        .inr ⟨.inr hlacks, ((hended stop' rfl).behind hlead).guarded⟩⟩
    · -- what comes behind the action does not fail
      rw [hact] at he hready
      obtain ⟨st₄, hmarked, -⟩ := markUp_of_ready tourId index hready hqueue s.cue
      change (p.markUp tourId index s.cue st₃).1 = _ at he
      rw [hmarked] at he
      cases he

end

end

end Player

/-- The files of a run can be written at each step that it comes to. -/
theorem Reaches.ready {files : Path → Prop} {tourId : String} {k i : Nat} {cues : List Cue}
    {c : Cue} {st st' : State σ} (hc : p.page.TellsTime)
    (h : Reaches p tourId k cues st i c st') (hr : Ready p.config.directory files st.scene.files) :
    Ready p.config.directory files st'.scene.files := by
  induction h with
  | here => exact hr
  | @later k i c d cs st st' st'' hp _ ih =>
    obtain ⟨r, hplayed⟩ := recordCue_played hc tourId k c st
    have hready := hplayed.ready files hr
    rw [hp] at hready
    exact ih hready

/-- Where only what is no browser's error is raised, a step's failure is recorded with the kind of
its end. -/
theorem failureOf?_error {stop : Stop} (index : Nat) (kind : String)
    (h : ∀ f, stop = .raised f → f.isBrowser = false) :
    ∃ message, failureOf? index kind (.error stop) = some ⟨index, kind, stop.kind, message⟩ := by
  cases stop with
  | failed why message => exact ⟨message, rfl⟩
  | raised f =>
    have hk : (Stop.raised f).kind = .error := if_neg (by simp [not_isTimeout (h f rfl)])
    rw [hk]
    exact ⟨_, rfl⟩

namespace Player

/-- The step that a run comes to and that fails leaves its failure in the result. -/
theorem play_failure_of_reaches {t : Tour} {sc : Scene σ} {st st' : State σ} {i : Nat} {c : Cue}
    {stop : Stop} (hc : p.page.TellsTime) (hb : p.Begins t sc st)
    (hreach : Reaches p t.id 0 t.cues st i c st')
    (he : (p.playCue t.id i c (p.clocked st')).1 = .error stop) :
    (p.play t.id t.cues (.fresh t.id sc)).2.result.failure =
      failureOf? i c.action.kind (.error stop) := by
  obtain ⟨st₀, ho, hs⟩ := hb
  have hon : p.onPage t.id t.cues (noteStart t.id t.cues st₀) = p.playCues t.id 0 t.cues st :=
    Attempt.bind_ok hs _
  obtain ⟨-, hfailure⟩ := (playCues_course hc t.id 0 t.cues st).ending_of_reaches hreach he
  rw [(play_frame ho hon).1, hfailure]

theorem Gentle.listening (hg : p.Gentle) :
    (⟨p.page.listening, p.timing, p.config⟩ : Player ι (σ × List (Heard ι))).Gentle where
  browser c s := hg.browser c s.1
  url s := hg.url s.1
  clock s := hg.clock s.1

end Player

end Walkthrough.Run
