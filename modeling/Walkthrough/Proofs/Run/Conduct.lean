import Mathlib.Computability.Language
import Walkthrough.Proofs.Attempt
import Walkthrough.Proofs.Files
import Walkthrough.Run
/-!
How parts of a step behave: which calls of the page they make and in which order, what they leave
of the result, and which failures and faults can come of them. Parts put together behave as the
parts do.
-/

namespace Walkthrough

/-- A call of a page, with the fault it was answered with if it was. -/
structure Called where
  call : PageCall
  fault : Option Fault

/-- The fault that something ended with. -/
def faultOf? {α : Type} : Except Fault α → Option Fault
  | .ok _ => none
  | .error f => some f

/-- A page comes from one state to another by calls, in this order, and by readings of its clock. -/
inductive Page.Leads {ι σ : Type} (page : Page ι σ) : σ → List Called → σ → Prop
  | here (s : σ) : Leads page s [] s
  | call {s s' : σ} {cs : List Called} (c : PageCall) (h : Leads page (page.answer c s).2 cs s') :
    Leads page s (⟨c, faultOf? (page.answer c s).1⟩ :: cs) s'
  | clock {s s' : σ} {cs : List Called} (h : Leads page (page.clock s).2 cs s') :
    Leads page s cs s'

theorem Page.Leads.trans {ι σ : Type} {page : Page ι σ} {s s' s'' : σ} {cs cs' : List Called}
    (h : page.Leads s cs s') (h' : page.Leads s' cs' s'') : page.Leads s (cs ++ cs') s'' := by
  induction h with
  | here s => exact h'
  | call c _ ih => exact .call c (ih h')
  | clock _ ih => exact .clock (ih h')

/-- A page keeps a log of its calls. -/
structure Page.Logs {ι σ : Type} (page : Page ι σ) (log : σ → List Called) : Prop where
  answer : ∀ c s, log (page.answer c s).2 = log s ++ [⟨c, faultOf? (page.answer c s).1⟩]
  clock : ∀ s, log (page.clock s).2 = log s

/-- The calls that lead from one state to another are those that were logged. -/
theorem Page.Leads.log {ι σ : Type} {page : Page ι σ} {log : σ → List Called}
    (hl : page.Logs log) {s s' : σ} {cs : List Called} (h : page.Leads s cs s') :
    log s' = log s ++ cs := by
  induction h with
  | here s => rw [List.append_nil]
  | call c _ ih => rw [ih, hl.answer, List.append_assoc, List.singleton_append]
  | clock _ ih => rw [ih, hl.clock]

namespace Run

/-- Words of calls that are all of a kind. -/
def only (K : PageCall → Prop) : Language PageCall := {w | ∀ c ∈ w, K c}

theorem mem_only {K : PageCall → Prop} {w : List PageCall} : w ∈ only K ↔ ∀ c ∈ w, K c := Iff.rfl

theorem nil_mem_only (K : PageCall → Prop) : [] ∈ only K := by simp [mem_only]

/-- None of some calls was answered with a fault other than an error of the browser. -/
def Mild (cs : List Called) : Prop := ∀ c ∈ cs, ∀ f ∈ c.fault, f.isBrowser = true

theorem Mild.append {cs cs' : List Called} (h : Mild cs) (h' : Mild cs') : Mild (cs ++ cs') := by
  intro c hc
  rcases List.mem_append.mp hc with hc | hc
  · exact h c hc
  · exact h' c hc

theorem mild_nil : Mild [] := by simp [Mild]

/-- A fault other than an error of the browser ends what met it, and nothing is called after it. -/
def Halts {α : Type} (r : Except Stop α) (cs : List Called) : Prop :=
  Mild cs ∨ ∃ before c f, cs = before ++ [⟨c, some f⟩] ∧ Mild before ∧ f.isBrowser = false ∧
    r = .error (.raised f)

/-- Calls follow a plan: all of it if what makes them comes to its end, and else a part from its
beginning on. -/
structure Conduct {α : Type} (plan : Language PageCall) (r : Except Stop α) (cs : List Called) :
    Prop where
  follows : ∃ w ∈ plan, cs.map (·.call) <+: w ∧ ∀ x, r = .ok x → cs.map (·.call) = w
  halts : Halts r cs

/-- What a step does not touch in a result. -/
structure SameOutcome (r r' : Result) : Prop where
  tourId : r'.tourId = r.tourId
  records : r'.records = r.records
  failure : r'.failure = r.failure

theorem SameOutcome.refl (r : Result) : SameOutcome r r := ⟨rfl, rfl, rfl⟩

theorem SameOutcome.trans {r r' r'' : Result} (h : SameOutcome r r') (h' : SameOutcome r' r'') :
    SameOutcome r r'' :=
  ⟨h'.tourId.trans h.tourId, h'.records.trans h.records, h'.failure.trans h.failure⟩

/-- The files of a run can be written. -/
structure Ready (directory : Path) (files : Path → Prop) (st : Store) : Prop where
  directory : st.HasDirectory directory
  writable : ∀ q, files q → st.Writable q

theorem Ready.of_targets {directory : Path} {files : List Path} {st : Store} {loc : Location}
    (hl : st.locate directory = .ok loc) (hd : st.at? loc = some .directory)
    (hw : ∀ q ∈ files, (st.target q).toOption.isSome) : Ready directory (· ∈ files) st :=
  ⟨⟨loc, hl, hd⟩, fun q hq => Store.writable_of_target (hw q hq)⟩

theorem Ready.of_sameDirectories {directory : Path} {files : Path → Prop} {st st' : Store}
    (h : Ready directory files st) (hs : Store.SameDirectories st st') :
    Ready directory files st' :=
  ⟨h.directory.of_sameDirectories hs, fun q hq => (h.writable q hq).of_sameDirectories hs⟩

variable {ι σ α β : Type}

/-- What an action can give. -/
def Yields {ε : Type} (a : Play ε σ α) (x : α) : Prop := ∃ st st', a st = (.ok x, st')

/-- What a part of a step that begins in a state comes to. Its calls follow a plan, it leaves alone
what a step does not touch, and keeps the files such that they can be written. Only if something is
not set does it fail over the configuration, and only an error of the browser is raised where
conditions are sound. -/
structure ComesTo (p : Player ι σ) (files : Path → Prop) (plan : Language PageCall)
    (unset sound : Prop) (st : State σ) (x : Except Stop α × State σ) : Prop where
  outcome : SameOutcome st.result x.2.result
  calls : ∃ cs, p.page.Leads st.scene.page cs x.2.scene.page ∧ Conduct plan x.1 cs
  unset : ∀ m, x.1 = .error (.failed .configuration m) → unset
  ready : Ready p.config.directory files st.scene.files →
    Ready p.config.directory files x.2.scene.files
  sound : sound → Ready p.config.directory files st.scene.files →
    ∀ f, x.1 = .error (.raised f) → f.isBrowser = true

/-- How a part of a step behaves, whatever state it begins in. -/
def Behaves (p : Player ι σ) (files : Path → Prop) (plan : Language PageCall)
    (unset sound : Prop) (a : Play Stop σ α) : Prop :=
  ∀ st, ComesTo p files plan unset sound st (a st)

namespace Halts

theorem of_error {e : Stop} {cs : List Called} (h : Halts (.error e : Except Stop α) cs) :
    Halts (.error e : Except Stop β) cs := by
  rcases h with h | ⟨before, c, f, hc, hb, hf, he⟩
  · exact .inl h
  · cases he
    exact .inr ⟨before, c, f, hc, hb, hf, rfl⟩

theorem mild_of_ok {x : α} {cs : List Called} (h : Halts (.ok x) cs) : Mild cs := by
  rcases h with h | ⟨_, _, _, _, _, _, he⟩
  · exact h
  · cases he

theorem mild_of_browser {g : Fault} {cs : List Called} (hg : g.isBrowser = true)
    (h : Halts (.error (.raised g) : Except Stop α) cs) : Mild cs := by
  rcases h with h | ⟨_, _, g', _, _, hg', he⟩
  · exact h
  · cases he
    rw [hg] at hg'
    cases hg'

theorem append {r : Except Stop α} {cs cs' : List Called} (h : Mild cs) (h' : Halts r cs') :
    Halts r (cs ++ cs') := by
  rcases h' with h' | ⟨before, c, f, hc, hb, hf, he⟩
  · exact .inl (h.append h')
  · exact .inr ⟨cs ++ before, c, f, by rw [hc, List.append_assoc], h.append hb, hf, he⟩

/-- A call that is answered with a fault ends what made it. -/
theorem of_answer (c : PageCall) (x : Except Fault α) :
    Halts (x.mapError Stop.raised) [⟨c, faultOf? x⟩] := by
  cases x with
  | error g =>
    cases hb : g.isBrowser with
    | true => exact .inl (by simpa [Mild, faultOf?] using hb)
    | false => exact .inr ⟨[], c, g, rfl, mild_nil, hb, rfl⟩
  | ok x => exact .inl (by simp [Mild, faultOf?])

end Halts

namespace Conduct

theorem of_error {plan plan' : Language PageCall} {e : Stop} {cs : List Called}
    (h : Conduct plan (.error e : Except Stop α) cs) (hp : ∃ w, w ∈ plan') :
    Conduct (plan * plan') (.error e : Except Stop β) cs := by
  obtain ⟨⟨w, hw, hpre, -⟩, hh⟩ := h
  obtain ⟨w', hw'⟩ := hp
  refine ⟨⟨w ++ w', Language.append_mem_mul hw hw', hpre.trans (List.prefix_append w w'), ?_⟩,
    hh.of_error⟩
  rintro x ⟨⟩

theorem append {plan plan' : Language PageCall} {x : α} {r : Except Stop β} {cs cs' : List Called}
    (h : Conduct plan (.ok x) cs) (h' : Conduct plan' r cs') :
    Conduct (plan * plan') r (cs ++ cs') := by
  obtain ⟨⟨w, hw, -, heq⟩, hh⟩ := h
  obtain ⟨⟨w', hw', hpre', heq'⟩, hh'⟩ := h'
  have he := heq x rfl
  refine ⟨⟨w ++ w', Language.append_mem_mul hw hw', ?_, ?_⟩, hh'.append hh.mild_of_ok⟩
  · rw [List.map_append, he]
    exact (List.prefix_append_right_inj w).mpr hpre'
  · intro y hy
    rw [List.map_append, he, heq' y hy]

theorem mono {plan plan' : Language PageCall} {r : Except Stop α} {cs : List Called}
    (h : Conduct plan r cs) (hp : ∀ w ∈ plan, w ∈ plan') : Conduct plan' r cs := by
  obtain ⟨⟨w, hw, hpre, heq⟩, hh⟩ := h
  exact ⟨⟨w, hp w hw, hpre, heq⟩, hh⟩

/-- Where only the kind of calls matters, the calls are their own plan. -/
theorem only_iff {K : PageCall → Prop} {r : Except Stop α} {cs : List Called} :
    Conduct (only K) r cs ↔ (∀ c ∈ cs, K c.call) ∧ Halts r cs := by
  constructor
  · rintro ⟨⟨w, hw, hpre, -⟩, hh⟩
    refine ⟨fun c hc => hw _ (hpre.subset (List.mem_map_of_mem hc)), hh⟩
  · rintro ⟨hk, hh⟩
    refine ⟨⟨cs.map (·.call), ?_, List.prefix_rfl, fun _ _ => rfl⟩, hh⟩
    simpa [mem_only] using hk

end Conduct

namespace ComesTo

variable {p : Player ι σ} {files : Path → Prop} {plan plan' : Language PageCall}
  {unset unset' sound : Prop} {st st' : State σ}

theorem mono {x : Except Stop α × State σ} (h : ComesTo p files plan unset sound st x)
    (hp : ∀ w ∈ plan, w ∈ plan') (hu : unset → unset') :
    ComesTo p files plan' unset' sound st x where
  outcome := h.outcome
  calls := by
    obtain ⟨cs, hl, hc⟩ := h.calls
    exact ⟨cs, hl, hc.mono hp⟩
  unset m hm := hu (h.unset m hm)
  ready := h.ready
  sound := h.sound

/-- What ends early has followed a part of any longer plan. -/
theorem of_error {e : Stop}
    (h : ComesTo p files plan unset sound st ((.error e, st') : Except Stop α × State σ))
    (hp : ∃ w, w ∈ plan') :
    ComesTo p files (plan * plan') unset sound st ((.error e, st') : Except Stop β × State σ) where
  outcome := h.outcome
  calls := by
    obtain ⟨cs, hl, hc⟩ := h.calls
    exact ⟨cs, hl, hc.of_error hp⟩
  unset m hm := h.unset m (by cases hm; rfl)
  ready := h.ready
  sound hs hr f hf := h.sound hs hr f (by cases hf; rfl)

/-- What comes to a value and goes on from there follows the one plan after the other. -/
theorem trans {x : α} {y : Except Stop β × State σ}
    (h : ComesTo p files plan unset sound st (.ok x, st'))
    (h' : ComesTo p files plan' unset sound st' y) :
    ComesTo p files (plan * plan') unset sound st y where
  outcome := h.outcome.trans h'.outcome
  calls := by
    obtain ⟨cs, hl, hc⟩ := h.calls
    obtain ⟨cs', hl', hc'⟩ := h'.calls
    exact ⟨cs ++ cs', hl.trans hl', hc.append hc'⟩
  unset := h'.unset
  ready hr := h'.ready (h.ready hr)
  sound hs hr := h'.sound hs (h.ready hr)

/-- One part after another follows the one plan after the other. -/
theorem bind {a : Play Stop σ α} {f : α → Play Stop σ β}
    (h : ComesTo p files plan unset sound st (a st))
    (hf : ∀ x st', a st = (.ok x, st') → ComesTo p files plan' unset sound st' (f x st'))
    (hp : ∃ w, w ∈ plan') : ComesTo p files (plan * plan') unset sound st ((a >>= f) st) := by
  rcases has : a st with ⟨e | x, st'⟩
  · rw [has] at h
    rw [Attempt.bind_error has]
    exact h.of_error hp
  · rw [has] at h
    rw [Attempt.bind_ok has]
    exact h.trans (hf x st' has)

/-- Where only the kind of calls matters, parts put together keep to the kind. -/
theorem seq {K : PageCall → Prop} {a : Play Stop σ α} {f : α → Play Stop σ β}
    (h : ComesTo p files (only K) unset sound st (a st))
    (hf : ∀ x st', a st = (.ok x, st') → ComesTo p files (only K) unset sound st' (f x st')) :
    ComesTo p files (only K) unset sound st ((a >>= f) st) := by
  refine (h.bind hf ⟨[], nil_mem_only K⟩).mono ?_ id
  intro w hw
  obtain ⟨u, hu, v, hv, rfl⟩ := Language.mem_mul.mp hw
  intro c hc
  rcases List.mem_append.mp hc with hc | hc
  · exact hu c hc
  · exact hv c hc

/-- A fault that is handled: what comes of it comes of the handler, but for the calls. -/
theorem handled {plan'' : Language PageCall} {g : Fault} {y : Except Stop α × State σ}
    (h : ComesTo p files plan unset sound st
      ((.error (.raised g), st') : Except Stop α × State σ))
    (h' : ComesTo p files plan' unset sound st' y)
    (hc : ∃ cs, p.page.Leads st.scene.page cs y.2.scene.page ∧ Conduct plan'' y.1 cs) :
    ComesTo p files plan'' unset sound st y where
  outcome := h.outcome.trans h'.outcome
  calls := hc
  unset := h'.unset
  ready hr := h'.ready (h.ready hr)
  sound hs hr := h'.sound hs (h.ready hr)

end ComesTo

namespace Behaves

variable {p : Player ι σ} {files : Path → Prop} {plan plan' : Language PageCall}
  {unset sound : Prop} {a : Play Stop σ α} {f : α → Play Stop σ β} {K : PageCall → Prop}

theorem mono {unset' : Prop} (h : Behaves p files plan unset sound a) (hp : ∀ w ∈ plan, w ∈ plan')
    (hu : unset → unset') : Behaves p files plan' unset' sound a :=
  fun st => (h st).mono hp hu

theorem bind (ha : Behaves p files plan unset sound a)
    (hf : ∀ x, Yields a x → Behaves p files plan' unset sound (f x)) (hp : ∃ w, w ∈ plan') :
    Behaves p files (plan * plan') unset sound (a >>= f) :=
  fun st => (ha st).bind (fun x st' h => hf x ⟨st, st', h⟩ st') hp

/-- What is done before or after without a call does not change the plan. -/
theorem quiet_bind (ha : Behaves p files 1 unset sound a)
    (hf : ∀ x, Yields a x → Behaves p files plan' unset sound (f x)) (hp : ∃ w, w ∈ plan') :
    Behaves p files plan' unset sound (a >>= f) :=
  (ha.bind hf hp).mono (fun w hw => by rwa [one_mul] at hw) id

theorem bind_quiet (ha : Behaves p files plan unset sound a)
    (hf : ∀ x, Yields a x → Behaves p files 1 unset sound (f x)) :
    Behaves p files plan unset sound (a >>= f) :=
  (ha.bind hf ⟨[], Language.nil_mem_one⟩).mono (fun w hw => by rwa [mul_one] at hw) id

/-- What neither calls the page nor writes a file follows the empty plan. -/
theorem of_still (hs : ∀ st, SameOutcome st.result (a st).2.result ∧
      (a st).2.scene.page = st.scene.page ∧ (a st).2.scene.files = st.scene.files)
    (hu : ∀ st m, (a st).1 = .error (.failed .configuration m) → unset)
    (hr : ∀ st f, (a st).1 = .error (.raised f) → sound → f.isBrowser = true) :
    Behaves p files 1 unset sound a := by
  intro st
  obtain ⟨ho, hp, hf⟩ := hs st
  constructor
  case outcome => exact ho
  case calls =>
    refine ⟨[], ?_, ⟨[], Language.nil_mem_one, List.prefix_rfl, fun _ _ => rfl⟩, .inl mild_nil⟩
    rw [hp]
    exact .here _
  case unset => exact hu st
  case ready =>
    intro hd
    rwa [hf]
  case sound =>
    intro h _ g hg
    exact hr st g hg h

theorem pure (x : α) : Behaves p files 1 unset sound (Pure.pure x : Play Stop σ α) :=
  of_still (fun st => ⟨.refl _, rfl, rfl⟩) (fun _ _ h => by cases h) (fun _ _ h => by cases h)

theorem fail {kind : FailureKind} {m : String} (h : kind = .configuration → unset) :
    Behaves p files 1 unset sound (fail kind m : Play Stop σ α) :=
  of_still (fun st => ⟨.refl _, rfl, rfl⟩) (fun _ _ he => by cases he; exact h rfl)
    (fun _ _ he => by cases he)

theorem raise {g : Fault} (h : sound → g.isBrowser = true) :
    Behaves p files 1 unset sound (throw (.raised g) : Play Stop σ α) :=
  of_still (fun st => ⟨.refl _, rfl, rfl⟩) (fun _ _ he => by cases he)
    (fun _ _ he => by cases he; exact h)

theorem note (line : String) : Behaves p files 1 unset sound (note line : Play Stop σ Unit) :=
  of_still (fun st => ⟨.refl _, rfl, rfl⟩) (fun _ _ h => by cases h) (fun _ _ h => by cases h)

theorem log (level : Level) (m : String) :
    Behaves p files 1 unset sound (log level m : Play Stop σ Unit) :=
  of_still (fun st => ⟨.refl _, rfl, rfl⟩) (fun _ _ h => by cases h) (fun _ _ h => by cases h)

theorem update {g : Result → Result} (h : ∀ r, SameOutcome r (g r)) :
    Behaves p files 1 unset sound (update g : Play Stop σ Unit) :=
  of_still (fun st => ⟨h _, rfl, rfl⟩) (fun _ _ h => by cases h) (fun _ _ h => by cases h)

/-- What was decided without looking at the run. -/
theorem decided {x : Except Stop α} (hu : ∀ m, x = .error (.failed .configuration m) → unset)
    (hr : ∀ g, x = .error (.raised g) → sound → g.isBrowser = true) :
    Behaves p files 1 unset sound (Attempt.decided x : Play Stop σ α) :=
  of_still (fun _ => ⟨.refl _, rfl, rfl⟩) (fun _ m h => hu m h) (fun _ g h => hr g h)

theorem of_act {w : Act σ α}
    (hc : ∀ sc, ∃ cs, p.page.Leads sc.page cs (w sc).2.page ∧ cs.map (·.call) ∈ plan ∧
      Halts ((w sc).1.mapError Stop.raised) cs)
    (hd : ∀ sc, Ready p.config.directory files sc.files →
      Ready p.config.directory files (w sc).2.files)
    (hs : sound → ∀ sc, Ready p.config.directory files sc.files →
      ∀ g, (w sc).1 = .error g → g.isBrowser = true) :
    Behaves p files plan unset sound (onScene .raised w : Play Stop σ α) := by
  intro st
  have hr {x : Except Fault α} {stop : Stop} (h : x.mapError .raised = .error stop) :
      ∃ g, x = .error g ∧ stop = .raised g := by
    cases x <;> cases h
    exact ⟨_, rfl, rfl⟩
  constructor
  case outcome => exact .refl _
  case calls =>
    obtain ⟨cs, hl, hp, hh⟩ := hc st.scene
    exact ⟨cs, hl, ⟨_, hp, List.prefix_rfl, fun _ _ => rfl⟩, hh⟩
  case unset =>
    intro m hm
    obtain ⟨g, -, hg⟩ := hr hm
    cases hg
  case ready => exact hd st.scene
  case sound =>
    intro h hready g hg
    obtain ⟨g', hw, hg'⟩ := hr hg
    cases hg'
    exact hs h st.scene hready g hw

/-- A call of the page follows the plan of that call. -/
theorem ask (c : PageCall)
    (h : sound → ∀ s g, (p.page.answer c s).1 = .error g → g.isBrowser = true) :
    Behaves p files {[c]} unset sound (p.ask c) :=
  of_act (fun _ => ⟨_, .call c (.here _), rfl, .of_answer c _⟩) (fun _ hd => hd)
    fun hs _ _ => h hs _

/-- A reading of the clock is no call. -/
theorem now (h : sound → ∀ s g, (p.page.clock s).1 ≠ .error g) :
    Behaves p files 1 unset sound (p.now Stop.raised) :=
  of_act (fun _ => ⟨[], .clock (.here _), Language.nil_mem_one, .inl mild_nil⟩) (fun _ hd => hd)
    fun hs sc _ g hg => absurd hg (h hs sc.page g)

/-- Work on files that can be done where the files can be written. -/
theorem file {w : Filing α}
    (hd : ∀ fs, Ready p.config.directory files fs → Ready p.config.directory files (w fs).2)
    (hs : sound → ∀ fs, Ready p.config.directory files fs → ∃ x, (w fs).1 = .ok x) :
    Behaves p files 1 unset sound (onScene .raised (Act.file w) : Play Stop σ α) := by
  refine of_act (fun _ => ⟨[], .here _, Language.nil_mem_one, .inl mild_nil⟩)
    (fun sc => hd sc.files) fun h sc hr g hg => ?_
  obtain ⟨x, hw⟩ := hs h _ hr
  rw [Act.file, Attempt.focus_apply, hw] at hg
  cases hg

theorem seq (ha : Behaves p files (only K) unset sound a)
    (hf : ∀ x, Yields a x → Behaves p files (only K) unset sound (f x)) :
    Behaves p files (only K) unset sound (a >>= f) :=
  fun st => (ha st).seq fun x st' h => hf x ⟨st, st', h⟩ st'

/-- No calls are of every kind. -/
theorem quiet (h : Behaves p files 1 unset sound a) : Behaves p files (only K) unset sound a := by
  refine h.mono ?_ id
  rintro w rfl
  exact nil_mem_only K

theorem call {c : PageCall} (hc : K c)
    (h : sound → ∀ s g, (p.page.answer c s).1 = .error g → g.isBrowser = true) :
    Behaves p files (only K) unset sound (p.ask c) := by
  refine (ask c h).mono ?_ id
  rintro w rfl
  intro d hd
  rw [List.mem_singleton.mp hd]
  exact hc

end Behaves

theorem onFault_apply (a : Play Stop σ α) (handle : Fault → Play Stop σ α) (st : State σ) :
    onFault a handle st = match a st with
      | (.error (.raised g), st') => handle g st'
      | r => r := by
  unfold onFault
  rw [Attempt.bind_ok (Attempt.outcome_apply a st)]
  rcases a st with ⟨(_ | _) | x, st'⟩ <;> rfl

/-- A handler that raises again what is no error of the browser comes in only for such an error. -/
theorem onFault_cases {a : Play Stop σ α} {handle : Fault → Play Stop σ α}
    (hr : ∀ g, g.isBrowser = false → handle g = throw (.raised g)) (st : State σ) :
    onFault a handle st = a st ∨ ∃ g st', g.isBrowser = true ∧
      a st = (.error (.raised g), st') ∧ onFault a handle st = handle g st' := by
  rw [onFault_apply]
  rcases has : a st with ⟨(⟨k, m⟩ | g) | x, st'⟩
  · exact .inl rfl
  · cases hg : g.isBrowser with
    | true => exact .inr ⟨g, st', hg, rfl, rfl⟩
    | false =>
      left
      change handle g st' = _
      rw [hr g hg]
      rfl
  · exact .inl rfl

namespace Behaves

variable {p : Player ι σ} {files : Path → Prop} {plan plan' plan'' : Language PageCall}
  {unset sound : Prop} {a : Play Stop σ α} {handle : Fault → Play Stop σ α} {K : PageCall → Prop}

theorem onFault_of_calls (ha : Behaves p files plan unset sound a)
    (hh : ∀ g, g.isBrowser = true → Behaves p files plan' unset sound (handle g))
    (hr : ∀ g, g.isBrowser = false → handle g = throw (.raised g))
    (hc : ∀ st, ∃ cs, p.page.Leads st.scene.page cs (Run.onFault a handle st).2.scene.page ∧
      Conduct plan'' (Run.onFault a handle st).1 cs) :
    Behaves p files plan'' unset sound (onFault a handle) := by
  intro st
  have h := ha st
  have hcalls := hc st
  obtain he | ⟨g, st', hg, has, he⟩ := onFault_cases hr st
  · rw [he] at hcalls ⊢
    exact ⟨h.outcome, hcalls, h.unset, h.ready, h.sound⟩
  · rw [has] at h
    rw [he] at hcalls ⊢
    exact h.handled (hh g hg st') hcalls

/-- Where only the kind of calls matters, a handler may make more of them. -/
theorem onFault (ha : Behaves p files (only K) unset sound a)
    (hh : ∀ g, g.isBrowser = true → Behaves p files (only K) unset sound (handle g))
    (hr : ∀ g, g.isBrowser = false → handle g = throw (.raised g)) :
    Behaves p files (only K) unset sound (onFault a handle) := by
  refine onFault_of_calls ha hh hr fun st => ?_
  obtain ⟨cs, hl, hc⟩ := (ha st).calls
  obtain h | ⟨g, st', hg, has, h⟩ := onFault_cases hr st
  · rw [h]
    exact ⟨cs, hl, hc⟩
  · obtain ⟨cs', hl', hc'⟩ := (hh g hg st').calls
    rw [has] at hl hc
    rw [h]
    rw [Conduct.only_iff] at hc hc'
    have hm := hc.2.mild_of_browser hg
    refine ⟨cs ++ cs', hl.trans hl', Conduct.only_iff.mpr ⟨fun c hcs => ?_, hc'.2.append hm⟩⟩
    rcases List.mem_append.mp hcs with hcs | hcs
    · exact hc.1 c hcs
    · exact hc'.1 c hcs

end Behaves

theorem isBrowser_of_isTimeout {g : Fault} (h : g.isTimeout = true) : g.isBrowser = true := by
  cases g with
  | page k m => cases k <;> first | rfl | cases h
  | _ => cases h

theorem not_isTimeout {g : Fault} (h : g.isBrowser = false) : g.isTimeout = false := by
  cases ht : g.isTimeout with
  | false => rfl
  | true => rw [isBrowser_of_isTimeout ht] at h; cases h

theorem guarded_apply (a : Play Stop σ α) (st : State σ) :
    guarded a st = a st ∧ (∀ g, (a st).1 = .error (.raised g) → g.isBrowser = false) ∨
      ∃ g st' kind, g.isBrowser = true ∧ kind ≠ .configuration ∧
        a st = (.error (.raised g), st') ∧
        guarded a st = (.error (.failed kind g.firstLine), st') := by
  rw [guarded, onFault_apply]
  rcases has : a st with ⟨(⟨k, m⟩ | g) | x, st'⟩
  · exact .inl ⟨rfl, fun g hg => by cases hg⟩
  · dsimp only
    split_ifs with ht hb
    · exact .inr ⟨g, st', .timeout, isBrowser_of_isTimeout ht, by decide, rfl, rfl⟩
    · exact .inr ⟨g, st', .error, hb, by decide, rfl, rfl⟩
    · exact .inl ⟨rfl, fun g' hg' => by cases hg'; simpa using hb⟩
  · exact .inl ⟨rfl, fun g hg => by cases hg⟩

/-- An error of the browser comes, if it does, when all calls of a plan have been made. -/
def Late (p : Player ι σ) (plan : Language PageCall) (a : Play Stop σ α) : Prop :=
  ∀ st, ∃ cs, p.page.Leads st.scene.page cs (a st).2.scene.page ∧ Conduct plan (a st).1 cs ∧
    ∀ g, (a st).1 = .error (.raised g) → g.isBrowser = true → cs.map (·.call) ∈ plan

namespace Late

variable {p : Player ι σ} {files : Path → Prop} {plan : Language PageCall} {unset sound : Prop}
  {a : Play Stop σ α}

theorem ask (c : PageCall) : Late p {[c]} (p.ask c) := fun _ =>
  ⟨_, .call c (.here _), ⟨⟨[c], rfl, List.prefix_rfl, fun _ _ => rfl⟩, .of_answer c _⟩,
    fun _ _ _ => rfl⟩

theorem of_quiet (ha : Behaves p files 1 unset sound a) : Late p 1 a := by
  intro st
  obtain ⟨cs, hl, hc⟩ := (ha st).calls
  refine ⟨cs, hl, hc, fun _ _ _ => ?_⟩
  obtain ⟨w, rfl, hpre, -⟩ := hc.follows
  exact List.prefix_nil.mp hpre

theorem bind {f : α → Play Stop σ β} (ha : Late p plan a)
    (hf : ∀ x, Behaves p files 1 unset sound (f x)) : Late p plan (a >>= f) := by
  intro st
  obtain ⟨cs, hl, hc, hlate⟩ := ha st
  rcases has : a st with ⟨e | x, st'⟩
  · rw [has] at hl hc hlate
    rw [Attempt.bind_error has]
    refine ⟨cs, hl, ?_, fun g hg => hlate g (by cases hg; rfl)⟩
    have h1 : ∃ w, w ∈ (1 : Language PageCall) := ⟨[], Language.nil_mem_one⟩
    simpa using hc.of_error (β := β) h1
  · obtain ⟨cs', hl', hc'⟩ := (hf x st').calls
    rw [has] at hl hc
    rw [Attempt.bind_ok has]
    obtain ⟨w, hw, -, he⟩ := hc.follows
    obtain ⟨w', rfl, hpre, -⟩ := hc'.follows
    have hn : cs'.map (·.call) = [] := List.prefix_nil.mp hpre
    refine ⟨cs ++ cs', hl.trans hl', by simpa using hc.append hc', fun _ _ _ => ?_⟩
    rwa [List.map_append, hn, List.append_nil, he x rfl]

end Late

/-- A handler that calls nothing, of errors that come when all calls have been made. -/
theorem Behaves.onFault_late {p : Player ι σ} {files : Path → Prop} {plan : Language PageCall}
    {unset sound : Prop} {a : Play Stop σ α} {handle : Fault → Play Stop σ α}
    (ha : Behaves p files plan unset sound a) (hl : Late p plan a)
    (hh : ∀ g, g.isBrowser = true → Behaves p files 1 unset sound (handle g))
    (hr : ∀ g, g.isBrowser = false → handle g = throw (.raised g)) :
    Behaves p files plan unset sound (Run.onFault a handle) := by
  refine ha.onFault_of_calls hh hr fun st => ?_
  obtain ⟨cs, hc, hd, hfull⟩ := hl st
  obtain h | ⟨g, st', hg, has, h⟩ := onFault_cases hr st
  · rw [h]
    exact ⟨cs, hc, hd⟩
  · obtain ⟨cs', hc', hd'⟩ := (hh g hg st').calls
    rw [has] at hc hd hfull
    rw [h]
    -- the error came when the plan had been followed, so that the handler adds nothing to it
    have hw := hfull g rfl hg
    obtain ⟨w', rfl, hpre, -⟩ := hd'.follows
    have hn : cs'.map (·.call) = [] := List.prefix_nil.mp hpre
    have he : (cs ++ cs').map (·.call) = cs.map (·.call) := by
      rw [List.map_append, hn, List.append_nil]
    exact ⟨cs ++ cs', hc.trans hc', ⟨_, hw, by rw [he], fun _ _ => he⟩,
      hd'.halts.append (hd.halts.mild_of_browser hg)⟩

/-- A browser's errors become failures of the step, wherever they come from. -/
theorem isBrowser_of_guarded {a : Play Stop σ α} {st : State σ} {g : Fault}
    (h : (guarded a st).1 = .error (.raised g)) : g.isBrowser = false := by
  obtain ⟨he, hg⟩ | ⟨_, _, _, -, -, -, he⟩ := guarded_apply a st
  · rw [he] at h
    exact hg g h
  · rw [he] at h
    cases h

theorem Behaves.guarded {p : Player ι σ} {files : Path → Prop} {plan : Language PageCall}
    {unset sound : Prop} {a : Play Stop σ α} (ha : Behaves p files plan unset sound a) :
    Behaves p files plan unset sound (guarded a) := by
  intro st
  have h := ha st
  obtain ⟨he, -⟩ | ⟨g, st', kind, hg, hk, has, he⟩ := guarded_apply a st
  · rw [he]
    exact h
  · rw [has] at h
    rw [he]
    constructor
    case outcome => exact h.outcome
    case calls =>
      obtain ⟨cs, hl, ⟨w, hw, hpre, -⟩, hh⟩ := h.calls
      refine ⟨cs, hl, ⟨w, hw, hpre, ?_⟩, .inl (hh.mild_of_browser hg)⟩
      rintro x ⟨⟩
    case unset =>
      intro m hm
      cases hm
      exact absurd rfl hk
    case ready => exact h.ready
    case sound =>
      intro _ _ f hf
      cases hf

end Run

end Walkthrough
