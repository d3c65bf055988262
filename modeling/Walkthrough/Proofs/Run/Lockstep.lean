import Walkthrough.Proofs.Run.Confinement
/-!
Two runs side by side, of which the first may be ahead of the second in time and in screenshots.
Whatever part of a step both of them do they do in lockstep: the page is called and answers alike,
and the part ends alike.
-/

namespace Walkthrough

/-- A page overlooks calls of one kind over those of others. A relation says that a page in one
state has answered the calls that it has in another, and besides them some that are overlooked,
and that its clock is ahead by a time. What is related answers alike, in the same time; and an
overlooked call moves no more than the clock. -/
structure Page.Overlooks {σ : Type} (page : Page Int σ) (overlooked others : PageCall → Prop)
    (R : Int → σ → σ → Prop) : Prop where
  answer : ∀ d s s' c, R d s s' → others c → (page.answer c s).1 = (page.answer c s').1 ∧
    R d (page.answer c s).2 (page.answer c s').2
  clock : ∀ d s s', R d s s' → (page.clock s).1 = (page.clock s').1.map (· + d) ∧
    R d (page.clock s).2 (page.clock s').2
  overlooked : ∀ d s s' c, R d s s' → overlooked c → ∃ d', R d' (page.answer c s).2 s'

namespace Run

/-- Two results are the same but for the screenshots, where the jobs name one too, and for how long
the steps took. -/
structure SameStory (r r' : Result) : Prop where
  tourId : r.tourId = r'.tourId
  records : r.records.map (fun x => (x.step, x.stepKind, x.key, x.passed)) =
    r'.records.map fun x => (x.step, x.stepKind, x.key, x.passed)
  failure : r.failure = r'.failure
  transcript : r.transcript = r'.transcript
  jobs : r.jobs.map (fun j => (j.tourId, j.step, j.label, j.instructions)) =
    r'.jobs.map fun j => (j.tourId, j.step, j.label, j.instructions)

theorem SameStory.refl (r : Result) : SameStory r r := ⟨rfl, rfl, rfl, rfl, rfl⟩

theorem SameStory.trans {r r' r'' : Result} (h : SameStory r r') (h' : SameStory r' r'') :
    SameStory r r'' :=
  ⟨h.tourId.trans h'.tourId, h.records.trans h'.records, h.failure.trans h'.failure,
    h.transcript.trans h'.transcript, h.jobs.trans h'.jobs⟩

/-- Two runs are in states that are alike: so are their pages, and they have the same story behind
them; there are the same directories, those of the run among them, and some files can be
written. -/
structure Alike {σ : Type} (directory : Path) (files : Path → Prop) (S : σ → σ → Prop)
    (st st' : State σ) : Prop where
  page : S st.scene.page st'.scene.page
  story : SameStory st.result st'.result
  stores : st.scene.files.SameDirectories st'.scene.files
  ready : Ready directory files st.scene.files
  screens : st.scene.files.HasDirectory (directory / "screens")

/-- The first run may go on alone, if it leaves the directories and the story as they are. -/
theorem Alike.of_first {σ : Type} {directory : Path} {files : Path → Prop} {S S' : σ → σ → Prop}
    {st st' s : State σ} (h : Alike directory files S st st')
    (hp : S' s.scene.page st'.scene.page) (hr : SameStory s.result st.result)
    (hf : st.scene.files.SameDirectories s.scene.files) : Alike directory files S' s st' where
  page := hp
  story := hr.trans h.story
  stores := hf.symm.trans h.stores
  ready := h.ready.of_sameDirectories hf
  screens := h.screens.of_sameDirectories hf

/-- Two actions end alike: with values that go together, or with the same cause. -/
inductive EndAlike {ε α β : Type} (V : α → β → Prop) : Except ε α → Except ε β → Prop
  | ok {x : α} {y : β} (h : V x y) : EndAlike V (.ok x) (.ok y)
  | error (e : ε) : EndAlike V (.error e) (.error e)

theorem EndAlike.of_eq {ε α : Type} (x : Except ε α) : EndAlike Eq x x := by
  cases x with
  | ok x => exact .ok rfl
  | error e => exact .error e

theorem EndAlike.eq {ε α : Type} {x y : Except ε α} (h : EndAlike Eq x y) : x = y := by
  cases h with
  | ok h => rw [h]
  | error e => rfl

variable {ε σ α α' β β' : Type}

/-- What actions come to that were done in two states: they have ended alike, in states that are
alike, and made the same calls. -/
structure Together (p : Player Int σ) (files : Path → Prop) (S : σ → σ → Prop) (V : α → α' → Prop)
    (st st' : State σ) (x : Except ε α × State σ) (y : Except ε α' × State σ) : Prop where
  ends : EndAlike V x.1 y.1
  alike : Alike p.config.directory files S x.2 y.2
  calls : ∃ cs, p.page.Leads st.scene.page cs x.2.scene.page ∧
    p.page.Leads st'.scene.page cs y.2.scene.page

/-- Two actions come to the same wherever they begin in states that are alike. -/
def Lockstep (p : Player Int σ) (files : Path → Prop) (S : σ → σ → Prop) (V : α → α' → Prop)
    (a : Play ε σ α) (b : Play ε σ α') : Prop :=
  ∀ st st', Alike p.config.directory files S st st' → Together p files S V st st' (a st) (b st')

namespace Lockstep

variable {p : Player Int σ} {files : Path → Prop} {S : σ → σ → Prop} {V : α → α' → Prop}
  {W : β → β' → Prop} {a : Play ε σ α} {b : Play ε σ α'}

theorem bind {f : α → Play ε σ β} {g : α' → Play ε σ β'} (h : Lockstep p files S V a b)
    (hf : ∀ x y, V x y → Lockstep p files S W (f x) (g y)) :
    Lockstep p files S W (a >>= f) (b >>= g) := by
  intro st st' hst
  obtain ⟨hends, halike, cs, hl, hl'⟩ := h st st' hst
  rcases ha : a st with ⟨r, s⟩
  rcases hb : b st' with ⟨r', s'⟩
  rw [ha, hb] at hends halike
  rw [ha] at hl
  rw [hb] at hl'
  cases hends with
  | ok hv =>
    rw [Attempt.bind_ok ha, Attempt.bind_ok hb]
    obtain ⟨hends, halike, cs', hm, hm'⟩ := hf _ _ hv s s' halike
    exact ⟨hends, halike, cs ++ cs', hl.trans hm, hl'.trans hm'⟩
  | error e =>
    rw [Attempt.bind_error ha, Attempt.bind_error hb]
    exact ⟨.error e, halike, cs, hl, hl'⟩

/-- Where both give the same value the same is done with it. -/
theorem seq {a b : Play ε σ α} {f : α → Play ε σ β} {g : α → Play ε σ β'}
    (h : Lockstep p files S Eq a b) (hf : ∀ x, Lockstep p files S W (f x) (g x)) :
    Lockstep p files S W (a >>= f) (b >>= g) :=
  h.bind fun x y hxy => by
    subst hxy
    exact hf x

theorem onFault {a : Play Stop σ α} {b : Play Stop σ α'} {f : Fault → Play Stop σ α}
    {g : Fault → Play Stop σ α'} (h : Lockstep p files S V a b)
    (hf : ∀ e, Lockstep p files S V (f e) (g e)) :
    Lockstep p files S V (onFault a f) (onFault b g) := by
  intro st st' hst
  obtain ⟨hends, halike, cs, hl, hl'⟩ := h st st' hst
  rw [onFault_apply, onFault_apply]
  rcases ha : a st with ⟨r, s⟩
  rcases hb : b st' with ⟨r', s'⟩
  rw [ha, hb] at hends halike
  rw [ha] at hl
  rw [hb] at hl'
  cases hends with
  | ok hv => exact ⟨.ok hv, halike, cs, hl, hl'⟩
  | error e =>
    cases e with
    | failed why m => exact ⟨.error _, halike, cs, hl, hl'⟩
    | raised e =>
      obtain ⟨hends, halike, cs', hm, hm'⟩ := hf e s s' halike
      exact ⟨hends, halike, cs ++ cs', hl.trans hm, hl'.trans hm'⟩

/-- What calls nothing and touches no file is done in lockstep if it goes on with the story in the
same way. -/
theorem quiet (h : ∀ st st', Alike p.config.directory files S st st' →
      EndAlike V (a st).1 (b st').1 ∧ SameStory (a st).2.result (b st').2.result)
    (ha : ∀ st, (a st).2.scene.page = st.scene.page ∧ (a st).2.scene.files = st.scene.files)
    (hb : ∀ st, (b st).2.scene.page = st.scene.page ∧ (b st).2.scene.files = st.scene.files) :
    Lockstep p files S V a b := by
  intro st st' hst
  obtain ⟨hends, hstory⟩ := h st st' hst
  obtain ⟨hp, hf⟩ := ha st
  obtain ⟨hp', hf'⟩ := hb st'
  refine ⟨hends, ⟨?_, hstory, ?_, ?_, ?_⟩, [], ?_, ?_⟩
  · rw [hp, hp']
    exact hst.page
  · rw [hf, hf']
    exact hst.stores
  · rw [hf]
    exact hst.ready
  · rw [hf]
    exact hst.screens
  · rw [hp]
    exact .here _
  · rw [hp']
    exact .here _

theorem decided {x : Except ε α} {y : Except ε α'} (h : EndAlike V x y) :
    Lockstep p files S V (Attempt.decided x) (Attempt.decided y) :=
  quiet (fun _ _ hst => ⟨h, hst.story⟩) (fun _ => ⟨rfl, rfl⟩) fun _ => ⟨rfl, rfl⟩

theorem pure {x : α} {y : α'} (h : V x y) :
    Lockstep p files S V (Pure.pure x : Play ε σ α) (Pure.pure y) := decided (.ok h)

theorem throw (e : ε) : Lockstep p files S V (MonadExcept.throw e : Play ε σ α)
    (MonadExcept.throw e) := decided (.error e)

/-- What is done with a value that was decided without looking at the run. -/
theorem decided_bind {x : Except ε α} {f : α → Play ε σ β} {g : α → Play ε σ β'}
    (hf : ∀ v, x = .ok v → Lockstep p files S W (f v) (g v)) :
    Lockstep p files S W (Attempt.decided x >>= f) (Attempt.decided x >>= g) := by
  cases x with
  | ok v => exact hf v rfl
  | error e => exact throw e

theorem kindly (x : Except KindFault α) :
    Lockstep p files S Eq (kindly x : Play Stop σ α) (kindly x) := decided (.of_eq _)

/-- Notes need not be the same. -/
theorem note (line line' : String) :
    Lockstep p files S Eq (note line : Play ε σ Unit) (note line') :=
  quiet (fun _ _ hst => ⟨.ok rfl, hst.story⟩) (fun _ => ⟨rfl, rfl⟩) fun _ => ⟨rfl, rfl⟩

theorem logged {cause : Fault → ε} (level : Level) (m m' : String) :
    Lockstep p files S Eq (onScene cause (Act.log level .runner m) : Play ε σ Unit)
      (onScene cause (Act.log level .runner m')) :=
  quiet (fun _ _ hst => ⟨.ok rfl, hst.story⟩) (fun _ => ⟨rfl, rfl⟩) fun _ => ⟨rfl, rfl⟩

theorem update {g g' : Result → Result} (h : ∀ r r', SameStory r r' → SameStory (g r) (g' r')) :
    Lockstep p files S Eq (update g : Play ε σ Unit) (update g') :=
  quiet (fun _ _ hst => ⟨.ok rfl, h _ _ hst.story⟩) (fun _ => ⟨rfl, rfl⟩) fun _ => ⟨rfl, rfl⟩

/-- What is looked at is alike, though not the same. -/
theorem get : Lockstep p files S (Alike p.config.directory files S)
    (MonadState.get : Play ε σ (State σ)) MonadState.get :=
  quiet (fun _ _ hst => ⟨.ok hst, hst.story⟩) (fun _ => ⟨rfl, rfl⟩) fun _ => ⟨rfl, rfl⟩

/-- Work on files that ends alike where there are the same directories, and keeps them. -/
theorem file {cause : Fault → ε} {w w' : Filing α}
    (h : ∀ fs fs', fs.SameDirectories fs' → fs.HasDirectory p.config.directory →
      fs.HasDirectory (p.config.directory / "screens") →
      (w' fs').1 = (w fs).1 ∧ fs.SameDirectories (w fs).2 ∧ (w fs).2.SameDirectories (w' fs').2) :
    Lockstep p files S Eq (onScene cause (Act.file w) : Play ε σ α)
      (onScene cause (Act.file w')) := by
  intro st st' hst
  obtain ⟨hends, hkeep, hsame⟩ := h _ _ hst.stores hst.ready.directory hst.screens
  have hx : ((onScene cause (Act.file w') : Play ε σ α) st').1 =
      ((onScene cause (Act.file w) : Play ε σ α) st).1 :=
    congrArg (fun x : Except Fault α => (x.mapError id).mapError cause) hends
  refine ⟨?_, ⟨hst.page, hst.story, hsame, hst.ready.of_sameDirectories hkeep,
    hst.screens.of_sameDirectories hkeep⟩, [], .here _, .here _⟩
  rw [hx]
  exact .of_eq _

theorem fillValue {anchor : String} {value envName : Option Json} :
    Lockstep p files S Eq (p.fillValue anchor value envName)
      (p.fillValue anchor value envName) := by
  cases envName with
  | some name =>
    refine (kindly _).seq fun found => ?_
    cases found with
    | none => exact throw _
    | some t => exact pure rfl
  | none =>
    cases value with
    | none => exact throw _
    | some v => exact pure rfl

theorem speak (index : Nat) (text : Json) (source : SpokenBy) :
    Lockstep p files S Eq (Player.speak index text source : Play Stop σ Unit)
      (Player.speak index text source) :=
  update fun r r' hr => ⟨hr.tourId, hr.records, hr.failure, by rw [hr.transcript], hr.jobs⟩

/-- The jobs may be for different screenshots. -/
theorem queueMarkup {tourId label : String} {index : Nat} {m : MarkupOf Json} :
    Lockstep p files S Eq (p.queueMarkup tourId index label m)
      (p.queueMarkup tourId index label m) := by
  unfold Player.queueMarkup
  refine get.bind fun s s' _ => ?_
  have happend (j j' : Job) : Lockstep p files S Eq
      (onScene .raised (Act.file (j.append (p.config.directory / "annotations.jsonl"))) :
        Play Stop σ Unit)
      (onScene .raised (Act.file (j'.append (p.config.directory / "annotations.jsonl")))) := by
    refine file fun fs fs' hsame hdirectory _ => ?_
    have hd : Ready p.config.directory (fun _ => False) fs := ⟨hdirectory, fun _ => False.elim⟩
    rw [hd.append_job, (hd.of_sameDirectories hsame).append_job]
    obtain ⟨hends, hboth⟩ := Filing.append_join_congr hsame hdirectory
      (isName_ownName "annotations.jsonl" (by decide)) (Text.Utf8.encode j.line.toList)
      (Text.Utf8.encode j'.line.toList)
    exact ⟨hends, Filing.append_sameDirectories fs _ _, hboth⟩
  refine (happend _ _).seq fun _ => Lockstep.seq (update fun r r' hr => ?_) fun _ => note _ _
  refine ⟨hr.tourId, hr.records, hr.failure, hr.transcript, ?_⟩
  simp only [List.map_append, hr.jobs, List.map_cons, List.map_nil]

end Lockstep

namespace Lockstep

variable {p : Player Int σ} {files : Path → Prop} {overlooked others K : PageCall → Prop}
  {R : Int → σ → σ → Prop} (ho : p.page.Overlooks overlooked others R) {d : Int}

include ho

theorem called {cause : Fault → ε} {c : PageCall} (hc : others c) :
    Lockstep p files (R d) Eq (onScene cause (Act.ask p.page c) : Play ε σ c.Answer)
      (onScene cause (Act.ask p.page c)) := by
  intro st st' hst
  obtain ⟨hanswer, hpage⟩ := ho.answer d _ _ c hst.page hc
  refine ⟨?_, ⟨hpage, hst.story, hst.stores, hst.ready, hst.screens⟩,
    [⟨c, faultOf? (p.page.answer c st.scene.page).1⟩], .call c (.here _), ?_⟩
  · change EndAlike Eq ((p.page.answer c st.scene.page).1.mapError cause)
      ((p.page.answer c st'.scene.page).1.mapError cause)
    rw [hanswer]
    exact .of_eq _
  · rw [hanswer]
    exact .call c (.here _)

theorem ask {c : PageCall} (hc : others c) : Lockstep p files (R d) Eq (p.ask c) (p.ask c) :=
  called ho hc

/-- The first run reads a later time. -/
theorem now (cause : Fault → ε) :
    Lockstep p files (R d) (fun t t' => t = t' + d) (p.now cause) (p.now cause) := by
  intro st st' hst
  obtain ⟨hreading, hpage⟩ := ho.clock d _ _ hst.page
  refine ⟨?_, ⟨hpage, hst.story, hst.stores, hst.ready, hst.screens⟩, [], .clock (.here _),
    .clock (.here _)⟩
  change EndAlike _ ((p.page.clock st.scene.page).1.mapError cause)
    ((p.page.clock st'.scene.page).1.mapError cause)
  rw [hreading]
  rcases (p.page.clock st'.scene.page).1 with f | t
  · exact .error _
  · exact .ok rfl

/-- The files of a screenshot need not hold the same. -/
theorem shoot {index : Nat} {name : Json} {fullPage : Option Json}
    (hc : ∀ c ∈ shotCalls p.config.directory index name fullPage, others c) :
    Lockstep p files (R d) Eq (p.shoot index name fullPage) (p.shoot index name fullPage) := by
  cases name with
  | str n =>
    rw [Player.shoot_str]
    refine (ask ho (hc _ (List.mem_singleton_self _))).seq fun image => ?_
    let write : Filing Unit := Filing.write (shotPath p.config.directory index n) image
    have hwrite : Lockstep p files (R d) Eq
        (onScene .raised (Act.file write) : Play Stop σ Unit)
        (onScene .raised (Act.file write)) := by
      refine file fun fs fs' hsame _ hscreens => ?_
      obtain ⟨hends, hboth⟩ := Filing.write_join_congr hsame hscreens
        (isName_shotName index n) image image
      rw [← shotPath_eq] at hends hboth
      exact ⟨hends, Filing.write_sameDirectories fs _ _, hboth⟩
    exact hwrite.seq fun _ => (note _ _).seq fun _ => update fun r r' hr =>
      ⟨hr.tourId, hr.records, hr.failure, hr.transcript, hr.jobs⟩
  | _ => exact throw _

theorem awaitEvent {name : Json} {timeout : Number} {route : Option String}
    (hc : others (.waitForEvent name route timeout)) :
    Lockstep p files (R d) Eq (p.awaitEvent name timeout route)
      (p.awaitEvent name timeout route) := by
  unfold Player.awaitEvent
  refine (ask ho hc).onFault fun g => ?_
  split_ifs
  · exact throw _
  · exact throw _

theorem openRoute {key : Json} (hc : ∀ c, Opens p.config key c → others c) :
    Lockstep p files (R d) Eq (p.openRoute key) (p.openRoute key) := by
  have hready : Lockstep p files (R d) Eq (p.awaitReady key) (p.awaitReady key) := by
    unfold Player.awaitReady
    cases he : p.config.readyEvent with
    | none => exact pure rfl
    | some e => exact awaitEvent ho (hc _ (.inr ⟨e, he, rfl⟩))
  rw [Player.openRoute]
  refine decided_bind fun found hfound => ?_
  rw [mapError_eq_ok] at hfound
  cases found with
  | none => exact throw _
  | some path =>
    refine decided_bind fun url hurl => ?_
    rw [mapError_eq_ok] at hurl
    refine ((ask ho (hc _ (.inl ⟨path, url, hfound, hurl, rfl⟩))).onFault fun g => ?_).seq
      fun status => ?_
    · split_ifs
      · exact throw _
      · exact throw _
    · cases status with
      | none => exact hready
      | some n =>
        dsimp only
        split_ifs
        · exact (throw _).seq fun _ => hready
        · exact hready

theorem giveUp {α : Type} {anchor verb timeout : String}
    (hc : others (.count (selectorOf anchor))) :
    Lockstep p files (R d) Eq (p.giveUp anchor verb timeout : Play Stop σ α)
      (p.giveUp anchor verb timeout) := by
  unfold Player.giveUp
  refine (ask ho hc).seq fun n => ?_
  split_ifs
  · exact throw _
  · exact throw _

section

variable (ht : p.timing = .exact)

include ht

/-- As much time is left of a time that ends later by as much as the first run is ahead. -/
theorem timeLeft {deadline deadline' : Int} (hd : deadline = deadline' + d) :
    Lockstep p files (R d) Eq (p.timeLeft deadline) (p.timeLeft deadline') := by
  refine (now ho _).bind fun t t' hreading => ?_
  have hleft : p.timing.left deadline t = p.timing.left deadline' t' := by
    rw [ht]
    change Except.ok (deadline - t) = Except.ok (deadline' - t')
    rw [hd, hreading, Int.add_sub_add_right]
  rw [hleft]
  exact decided (.of_eq _)

variable {anchor verb : String} {act : Number → PageCall}
  (hc : ∀ c, Handles (selectorOf anchor) act c → others c)

include hc

theorem tryOnce {deadline deadline' : Int} (hd : deadline = deadline' + d) (left : Int) :
    Lockstep p files (R d) Eq (p.tryOnce anchor act deadline left)
      (p.tryOnce anchor act deadline' left) := by
  unfold Player.tryOnce
  refine (ask ho (hc _ (.inl ⟨_, rfl⟩))).seq fun _ => (timeLeft ho ht hd).seq fun left => ?_
  split_ifs
  · exact pure rfl
  · exact (ask ho (hc _ (.inr (.inl ⟨_, rfl⟩)))).seq fun _ => pure rfl

omit ht in
theorem retry {again again' : Play Stop σ (Option Bool)}
    (h : Lockstep p files (R d) Eq again again') (f : Fault) :
    Lockstep p files (R d) Eq (p.retry anchor verb again f)
      (p.retry anchor verb again' f) := by
  cases hb : f.isBrowser with
  | false =>
    rw [p.retry_of_not_browser anchor verb _ hb, p.retry_of_not_browser anchor verb _ hb]
    exact throw _
  | true =>
    have hrest (m : String) : Lockstep p files (R d) Eq (do
          Run.log .debug m
          let _ : Unit ← p.ask (.pause (.num retryInterval))
          again)
        (do
          Run.log .debug m
          let _ : Unit ← p.ask (.pause (.num retryInterval))
          again') :=
      (logged _ _ _).seq fun _ => (ask ho (hc _ (.inr (.inr (.inl rfl))))).seq fun _ => h
    unfold Player.retry
    simp only [hb, Bool.not_true, Bool.false_eq_true, if_false]
    split_ifs
    · exact pure rfl
    · exact (throw _).seq fun _ => hrest _
    · exact hrest _

theorem attempts {deadline deadline' : Int} (hd : deadline = deadline' + d) (tries : Nat)
    (left : Int) : Lockstep p files (R d) Eq (p.attempts anchor verb act deadline tries left)
      (p.attempts anchor verb act deadline' tries left) := by
  induction tries generalizing left with
  | zero => exact pure rfl
  | succ tries ih =>
    -- each run looks at its own clock between two tries, and finds as much time left
    rw [Player.attempts_succ, Player.attempts_succ]
    split_ifs
    · exact pure rfl
    · exact ((tryOnce ho ht hc hd left).seq fun _ => pure rfl).onFault fun g =>
        retry ho hc ((timeLeft ho ht hd).seq fun left => ih left) g

/-- An element is acted on in lockstep, though the first run's time begins later. -/
theorem interact {timeout : Option Json} : Lockstep p files (R d) Eq
    (p.interact anchor verb act timeout) (p.interact anchor verb act timeout) := by
  rw [Player.interact]
  refine (now ho _).bind fun start start' hstart => (kindly _).seq fun time => ?_
  have hdeadline : Lockstep p files (R d) (fun t t' => t = t' + d)
      (Attempt.decided ((p.timing.after start time).mapError fun f => .raised (.number f)) :
        Play Stop σ Int)
      (Attempt.decided ((p.timing.after start' time).mapError fun f => .raised (.number f))) := by
    refine decided ?_
    rw [ht]
    change EndAlike _ (Except.mapError _ (time.truncate >>= fun n => .ok (start + n)))
      (Except.mapError _ (time.truncate >>= fun n => .ok (start' + n)))
    rcases time.truncate with e | n
    · exact .error _
    · exact .ok (by rw [hstart]; omega)
  refine hdeadline.bind fun deadline deadline' hd => (timeLeft ho ht hd).seq fun left => ?_
  refine (attempts ho ht hc hd _ left).seq fun done => ?_
  cases done with
  | none => exact throw _
  | some done =>
    cases done with
    | true => exact pure rfl
    | false => exact giveUp ho (hc _ (.inr (.inr (.inr rfl))))

end

/-- A step's action is done in lockstep. -/
theorem perform (ht : p.timing = .exact) {tourId : String} {index : Nat} {c : Cue}
    (hc : ∀ call, ActionCall p.config index c call → others call) :
    Lockstep p files (R d) Eq (p.perform tourId index c) (p.perform tourId index c) := by
  obtain ⟨a, x⟩ := c
  cases a with
  | narration message => exact (speak index message .narration).seq fun _ => note _ _
  | goto key => exact openRoute ho hc
  | click label anchor timeout => exact interact ho ht hc
  | fill label anchor value envName timeout =>
    exact fillValue.seq fun v => interact ho ht fun call h => hc call ⟨v, h⟩
  | waitForEvent label event timeout => exact awaitEvent ho (hc _ rfl)
  | expectVisible label anchor timeout =>
    refine (ask ho (hc _ (.inl rfl))).onFault fun g => ?_
    split_ifs
    · exact giveUp ho (hc _ (.inr rfl))
    · exact throw _
  | waitMs duration => exact ask ho (hc _ rfl)
  | screenshot name label fullPage => exact shoot ho hc
  | annotate label instructions target => exact queueMarkup

end Lockstep

end Run

end Walkthrough
