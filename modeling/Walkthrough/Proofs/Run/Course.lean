import Walkthrough.Proofs.Run.Step
/-!
The course of a run: steps are played and recorded one after the other until one does not pass.
-/

namespace Walkthrough

namespace Page

/-- A page's clock can always be read. -/
def TellsTime {ι σ : Type} (page : Page ι σ) : Prop := ∀ s f, (page.clock s).1 ≠ .error f

/-- What a page says that has nothing to say. -/
def plainAnswer : (c : PageCall) → c.Answer
  | .goto .. => none
  | .url => ""
  | .anchors | .screenshot .. => []
  | .count _ => 0
  | .addInitScript | .waitForLoad .. | .pause _ | .waitForLeaving .. | .waitForEvent ..
  | .waitVisible .. | .click .. | .fill .. => ()

/-- A page that refuses some calls and keeps a log of all of them, at one time. -/
def refusing {ι : Type} (refuse : PageCall → Option Fault) (time : ι) : Page ι (List Called) where
  answer c s :=
    (match refuse c with
      | some f => .error f
      | none => .ok (plainAnswer c), s ++ [⟨c, refuse c⟩])
  clock s := (.ok time, s)

theorem refusing_tellsTime {ι : Type} (refuse : PageCall → Option Fault) (time : ι) :
    (refusing refuse time).TellsTime := fun _ _ h => by cases h

theorem refusing_logs {ι : Type} (refuse : PageCall → Option Fault) (time : ι) :
    (refusing refuse time).Logs id where
  answer c s := by
    unfold refusing
    cases hr : refuse c <;> simp [hr, faultOf?]
  clock s := rfl

end Page

namespace Run

variable {ι σ : Type}

/-- How a run ends after a step that did not pass. -/
def Stop.ending : Stop → Except Fault Unit
  | failed .. => .ok ()
  | raised f => .error f

/-- What a step's end means for the run: whether it goes on, or the fault that ends it. -/
def goesOn : Except Stop Unit → Except Fault Bool
  | .ok () => .ok true
  | .error e => e.ending.map fun _ => false

/-- The failure that a step's end is recorded as. -/
def failureOf? (index : Nat) (kind : String) : Except Stop Unit → Option Failure
  | .ok () => none
  | .error (.failed why message) => some ⟨index, kind, why, message⟩
  | .error (.raised f) => some ⟨index, kind, .error, s!"Run aborted: {f.firstLine}"⟩

/-- The state in which a step begins, when the clock has been read. -/
def Player.clocked (p : Player ι σ) (st : State σ) : State σ := (p.now (ε := Fault) id st).2

/-- The state of a run after a failure. -/
def withFailure (f : Failure) (st : State σ) : State σ :=
  { st with result := { st.result with failure := some f } }

theorem update_failure (f : Failure) (st : State σ) :
    (update fun r => { r with failure := some f } : Play Fault σ Unit) st =
      (.ok (), withFailure f st) := rfl

theorem now_reading {p : Player ι σ} (hc : p.page.TellsTime) {ε : Type} (cause : Fault → ε)
    (st : State σ) :
    ∃ t, (p.page.clock st.scene.page).1 = .ok t ∧ p.now cause st = (.ok t, p.clocked st) := by
  rcases ht : (p.page.clock st.scene.page).1 with f | t
  · exact absurd ht (hc _ f)
  · refine ⟨t, rfl, ?_⟩
    change ((p.page.clock st.scene.page).1.mapError cause, _) = _
    rw [ht]
    rfl

theorem record_ok {p : Player ι σ} (hc : p.page.TellsTime) (index : Nat) (c : Cue) (start : ι)
    (passed : Bool) (st : State σ) : ∃ d, p.record index c start passed st =
      (.ok (), { p.clocked st with result := { st.result with
        records := st.result.records ++ [⟨index, c.action.kind, c.describe, passed, d⟩] } }) := by
  obtain ⟨t, -, ht⟩ := now_reading hc id st
  refine ⟨p.timing.elapsed start t, ?_⟩
  unfold Player.record
  rw [Attempt.bind_ok ht]
  rfl

/-- What is done about the end of a step. -/
def Player.conclude (p : Player ι σ) (index : Nat) (c : Cue) (start : ι) :
    Except Stop Unit → Play Fault σ Bool
  | .ok () => do
    p.record index c start true
    return true
  | .error (.failed why message) => do
    update fun r => { r with failure := some ⟨index, c.action.kind, why, message⟩ }
    p.record index c start false
    note s!"[ERROR] step {index} type={c.action.kind} kind={why.word}: {message}"
    onScene id (Act.log .error .runner
      s!"Step {index} ({c.action.kind}) failed [{why.word}]: {message}")
    return false
  | .error (.raised f) => do
    update fun r => { r with
      failure := some ⟨index, c.action.kind, .error, s!"Run aborted: {f.firstLine}"⟩ }
    p.record index c start false
    note s!"[ERROR] step {index} type={c.action.kind} aborted: {f.firstLine}"
    throw f

theorem recordCue_apply (p : Player ι σ) (tourId : String) (index : Nat) (c : Cue) (st : State σ) :
    p.recordCue tourId index c st = match p.now id st with
      | (.ok start, st') => p.conclude index c start (p.playCue tourId index c st').1
          (p.playCue tourId index c st').2
      | (.error f, st') => (.error f, st') := by
  unfold Player.recordCue
  rw [Attempt.bind_apply]
  rcases p.now id st with ⟨f | start, st'⟩
  · rfl
  · dsimp only
    rw [Attempt.bind_ok (Attempt.outcome_apply _ st')]
    rcases (p.playCue tourId index c st').1 with (⟨why, m⟩ | f) | ⟨⟩ <;> rfl

section

variable (p : Player ι σ) (index : Nat) (c : Cue) (start : ι)

theorem record_failure (passed : Bool) {failure : Option Failure} (st : State σ)
    (hf : st.result.failure = failure) :
    (p.record index c start passed st).2.result.failure = failure := by
  unfold Player.record
  exact Attempt.bind_keeps (I := fun st : State σ => st.result.failure = failure)
    (fun _ h => h) (fun _ _ h => h) st hf

/-- Whatever the clock says, a step that did not pass leaves its failure. -/
theorem conclude_failure (r : Except Stop Unit) (st : State σ) :
    (p.conclude index c start r st).2.result.failure =
      (failureOf? index c.action.kind r).or st.result.failure := by
  have hkeep (failure : Option Failure) (passed : Bool) (rest : Play Fault σ Bool) (st : State σ)
      (hrest : ∀ st, (rest st).2.result = st.result) (hf : st.result.failure = failure) :
      ((p.record index c start passed >>= fun _ => rest) st).2.result.failure = failure :=
    Attempt.bind_keeps (I := fun st : State σ => st.result.failure = failure)
      (record_failure p index c start passed) (fun _ st h => by rw [hrest st, h]) st hf
  unfold Player.conclude
  rcases r with (⟨why, m⟩ | f) | ⟨⟩
  · dsimp only
    rw [Attempt.bind_ok (update_failure _ _)]
    exact hkeep _ _ _ _ (fun _ => rfl) rfl
  · dsimp only
    rw [Attempt.bind_ok (update_failure _ _)]
    exact hkeep _ _ _ _ (fun _ => rfl) rfl
  · exact hkeep _ _ _ _ (fun _ => rfl) rfl

end

/-- What a step leaves before the end of it is recorded, and after. -/
structure Ends (p : Player ι σ) (index : Nat) (c : Cue) (st : State σ) (r : Except Stop Unit)
    (st' : State σ) : Prop where
  record : ∃ d, st'.result.records =
    st.result.records ++ [⟨index, c.action.kind, c.describe, r.isOk, d⟩]
  page : st'.scene.page = (p.clocked st).scene.page
  files : st'.scene.files = st.scene.files

theorem conclude_ends {p : Player ι σ} (hc : p.page.TellsTime) (index : Nat) (c : Cue) (start : ι)
    (r : Except Stop Unit) (st : State σ) :
    (p.conclude index c start r st).1 = goesOn r ∧
      Ends p index c st r (p.conclude index c start r st).2 := by
  unfold Player.conclude
  rcases r with (⟨why, m⟩ | f) | ⟨⟩
  · obtain ⟨d, hrec⟩ := record_ok hc index c start false
      (withFailure ⟨index, c.action.kind, why, m⟩ st)
    dsimp only
    rw [Attempt.bind_ok (update_failure _ _), Attempt.bind_ok hrec]
    exact ⟨rfl, ⟨d, rfl⟩, rfl, rfl⟩
  · obtain ⟨d, hrec⟩ := record_ok hc index c start false
      (withFailure ⟨index, c.action.kind, .error, s!"Run aborted: {f.firstLine}"⟩ st)
    dsimp only
    rw [Attempt.bind_ok (update_failure _ _), Attempt.bind_ok hrec]
    exact ⟨rfl, ⟨d, rfl⟩, rfl, rfl⟩
  · obtain ⟨d, hrec⟩ := record_ok hc index c start true st
    dsimp only
    rw [Attempt.bind_ok hrec]
    exact ⟨rfl, ⟨d, rfl⟩, rfl, rfl⟩

/-- What one step of a run does: it is played, one record of how it ended is added, and a failure
counts from then on. -/
structure Played (p : Player ι σ) (tourId : String) (index : Nat) (c : Cue) (st : State σ)
    (r : Except Stop Unit) (st' : State σ) : Prop where
  play : (p.playCue tourId index c (p.clocked st)).1 = r
  recordCue : p.recordCue tourId index c st = (goesOn r, st')
  record : ∃ d, st'.result.records =
    st.result.records ++ [⟨index, c.action.kind, c.describe, r.isOk, d⟩]
  failure : st'.result.failure = (failureOf? index c.action.kind r).or st.result.failure
  calls : ∃ cs, p.page.Leads st.scene.page cs st'.scene.page ∧
    Conduct (stepPlan p.config index c) r cs
  ready : ∀ files, Ready p.config.directory files st.scene.files →
    Ready p.config.directory files st'.scene.files

theorem recordCue_played {p : Player ι σ} (hc : p.page.TellsTime) (tourId : String) (index : Nat)
    (c : Cue) (st : State σ) :
    ∃ r, Played p tourId index c st r (p.recordCue tourId index c st).2 := by
  obtain ⟨start, -, hstart⟩ := now_reading hc id st
  rcases hplay : p.playCue tourId index c (p.clocked st) with ⟨r, st₁⟩
  obtain ⟨hgoes, he⟩ := conclude_ends hc index c start r st₁
  have hrec : p.recordCue tourId index c st = p.conclude index c start r st₁ := by
    rw [recordCue_apply, hstart]
    simp only [hplay]
  have hfail := conclude_failure p index c start r st₁
  rw [← hrec] at hgoes he hfail
  have hb (files : Path → Prop) : Behaves p files (stepPlan p.config index c) (Unset p.config c)
      False (p.playCue tourId index c) := .playCue False.elim
  obtain ⟨cs, hl, hcs⟩ := (hb (fun _ => True) (p.clocked st)).calls
  have ho := (hb (fun _ => True) (p.clocked st)).outcome
  have hr (files : Path → Prop) := (hb files (p.clocked st)).ready
  rw [hplay] at hl hcs ho hr
  obtain ⟨d, hd⟩ := he.record
  refine ⟨r, ⟨by rw [hplay], Prod.ext hgoes rfl, ⟨d, ?_⟩, ?_, ⟨cs, ?_, hcs⟩,
    fun files h => ?_⟩⟩
  · rw [hd, ho.records]
    rfl
  · rw [hfail, ho.failure]
    rfl
  · rw [he.page, ← List.append_nil cs]
    exact .clock (hl.trans (.clock (.here _)))
  · rw [he.files]
    exact hr files h

/-- A step is played from the state in which the clock was read, and then its end is seen to. -/
theorem Played.concluded {p : Player ι σ} (hc : p.page.TellsTime) {tourId : String} {index : Nat}
    {c : Cue} {st st' : State σ} {r : Except Stop Unit} (h : Played p tourId index c st r st') :
    ∃ start, st' = (p.conclude index c start r (p.playCue tourId index c (p.clocked st)).2).2 := by
  obtain ⟨start, -, hstart⟩ := now_reading hc id st
  have hrec := h.recordCue
  rw [recordCue_apply, hstart] at hrec
  refine ⟨start, ?_⟩
  rw [← h.play]
  exact (congrArg Prod.snd hrec).symm

/-- What steps of a run do, from one of its places on: they pass, up to the last or up to one that
does not. -/
inductive Course (p : Player ι σ) (tourId : String) :
    Nat → List Cue → State σ → Except Fault Unit → State σ → Prop
  | done (k : Nat) (st : State σ) : Course p tourId k [] st (.ok ()) st
  | passed {k : Nat} {c : Cue} {cs : List Cue} {st st' st'' : State σ} {x : Except Fault Unit}
    (hp : Played p tourId k c st (.ok ()) st') (h : Course p tourId (k + 1) cs st' x st'') :
    Course p tourId k (c :: cs) st x st''
  | stopped {k : Nat} {c : Cue} {st st' : State σ} {e : Stop} (cs : List Cue)
    (hp : Played p tourId k c st (.error e) st') :
    Course p tourId k (c :: cs) st e.ending st'

theorem playCues_course {p : Player ι σ} (hc : p.page.TellsTime) (tourId : String) (k : Nat)
    (cs : List Cue) (st : State σ) : Course p tourId k cs st (p.playCues tourId k cs st).1
      (p.playCues tourId k cs st).2 := by
  induction cs generalizing k st with
  | nil => exact .done k st
  | cons c cs ih =>
    obtain ⟨r, hp⟩ := recordCue_played hc tourId k c st
    have hrec := hp.recordCue
    generalize (p.recordCue tourId k c st).2 = st' at hp hrec
    rw [Player.playCues]
    rcases r with (⟨why, m⟩ | f) | ⟨⟩
    · rw [Attempt.bind_ok hrec]
      exact .stopped cs hp
    · rw [Attempt.bind_error hrec]
      exact .stopped cs hp
    · rw [Attempt.bind_ok hrec]
      exact .passed hp (ih (k + 1) st')

/-- Records keep to the sequence of cues from a place on: one for each that was played, in order,
all of them passed but for the last one if there is a failure, which is that one's. -/
structure InSequence (k : Nat) (cues : List Cue) (records : List Record)
    (failure : Option Failure) : Prop where
  steps : records.map (·.step) = List.range' k records.length
  kinds : records.map (·.stepKind) = (cues.take records.length).map (·.action.kind)
  passed : ∀ r ∈ records.dropLast, r.passed = true
  last : records.getLast?.any (!·.passed) = failure.isSome
  place : ∀ f ∈ failure, f.step + 1 = k + records.length
  all : failure = none → records.length = cues.length

namespace InSequence

theorem nil (k : Nat) : InSequence k [] [] none := by constructor <;> simp

theorem singleton (k : Nat) (c : Cue) (cs : List Cue) (e : Stop) (key : String) (d : Number) :
    InSequence k (c :: cs) [⟨k, c.action.kind, key, false, d⟩]
      (failureOf? k c.action.kind (.error e)) := by
  cases e <;> constructor <;> simp [failureOf?]

theorem cons {k : Nat} {cs : List Cue} {records : List Record} {failure : Option Failure}
    (h : InSequence (k + 1) cs records failure) (c : Cue) (key : String) (d : Number) :
    InSequence k (c :: cs) (⟨k, c.action.kind, key, true, d⟩ :: records) failure where
  steps := by simp [h.steps, List.range'_succ]
  kinds := by simp [h.kinds]
  passed := by
    cases records with
    | nil => simp
    | cons r rs => simpa using h.passed
  last := by
    cases records with
    | nil => simpa using h.last
    | cons r rs => simpa using h.last
  place f hf := by
    rw [h.place f hf, List.length_cons]
    omega
  all hn := by simp [h.all hn]

/-- Without a failure every cue has its record, which says that it passed. -/
theorem complete {cues : List Cue} {records : List Record}
    (h : InSequence 0 cues records none) :
    records.map (·.step) = List.range cues.length ∧
      records.map (·.stepKind) = cues.map (·.action.kind) ∧ ∀ r ∈ records, r.passed = true := by
  have hl := h.all rfl
  refine ⟨by rw [h.steps, hl, List.range_eq_range'], by rw [h.kinds, hl, List.take_length],
    fun r hr => ?_⟩
  rcases List.eq_nil_or_concat' records with rfl | ⟨rs, x, rfl⟩
  · cases hr
  · rcases List.mem_append.mp hr with hr | hr
    · exact h.passed r (by rwa [List.dropLast_concat])
    · have hlast := h.last
      rw [List.getLast?_concat] at hlast
      rw [List.mem_singleton.mp hr]
      simpa using hlast

end InSequence

/-- Each record has the calls of its step: they follow the step's plan, and how the step ended is
what was recorded; if it did not pass, the run ended so, with that failure. -/
structure Accounts (config : RunConfig) (k : Nat) (cues : List Cue) (records : List Record)
    (failure : Option Failure) (x : Except Fault Unit) (calls : List (List Called)) : Prop where
  length : calls.length = records.length
  step : ∀ i cs, calls[i]? = some cs → ∃ c r, cues[i]? = some c ∧
    records[i]?.map (·.passed) = some r.isOk ∧ Conduct (stepPlan config (k + i) c) r cs ∧
    ∀ e, r = .error e → x = e.ending ∧ failure = failureOf? (k + i) c.action.kind r

namespace Accounts

variable {config : RunConfig} {k : Nat} {c : Cue} {cues : List Cue} {cs : List Called}

theorem nil (config : RunConfig) (k : Nat) : Accounts config k [] [] none (.ok ()) [] := by
  constructor <;> simp

theorem singleton {e : Stop} (h : Conduct (stepPlan config k c) (.error e : Except Stop Unit) cs)
    (key : String) (d : Number) :
    Accounts config k (c :: cues) [⟨k, c.action.kind, key, false, d⟩]
      (failureOf? k c.action.kind (.error e)) e.ending [cs] where
  length := rfl
  step i cs' hi := by
    cases i with
    | succ i => simp at hi
    | zero =>
      cases hi
      exact ⟨c, .error e, rfl, rfl, h, fun e' he => by cases he; exact ⟨rfl, rfl⟩⟩

theorem cons {records : List Record} {failure : Option Failure} {x : Except Fault Unit}
    {calls : List (List Called)} (h : Conduct (stepPlan config k c) (.ok ()) cs)
    (ha : Accounts config (k + 1) cues records failure x calls) (key : String) (d : Number) :
    Accounts config k (c :: cues) (⟨k, c.action.kind, key, true, d⟩ :: records) failure x
      (cs :: calls) where
  length := by rw [List.length_cons, List.length_cons, ha.length]
  step i cs' hi := by
    cases i with
    | zero =>
      cases hi
      exact ⟨c, .ok (), rfl, rfl, h, fun e he => by cases he⟩
    | succ i =>
      obtain ⟨c', r, hc, hr, hp, he⟩ := ha.step i cs' hi
      rw [Nat.add_right_comm] at hp he
      exact ⟨c', r, hc, hr, hp, he⟩

end Accounts

namespace Course

variable {p : Player ι σ} {tourId : String} {k : Nat} {cues : List Cue} {st st' : State σ}
  {x : Except Fault Unit}

/-- What a run of steps that began without a failure has recorded, and what it has called. -/
theorem recorded (h : Course p tourId k cues st x st') (hf : st.result.failure = none) :
    ∃ records calls, st'.result.records = st.result.records ++ records ∧
      InSequence k cues records st'.result.failure ∧
      p.page.Leads st.scene.page calls.flatten st'.scene.page ∧
      Accounts p.config k cues records st'.result.failure x calls := by
  induction h with
  | done k st =>
    rw [hf]
    exact ⟨[], [], by simp, .nil k, .here _, .nil _ k⟩
  | @passed k c cs st st' st'' x hp _ ih =>
    -- a step that passed leaves no failure, so that the rest begins without one as well
    obtain ⟨d, hd⟩ := hp.record
    obtain ⟨called, hl, hcs⟩ := hp.calls
    obtain ⟨records, calls, hr, hs, hl', ha⟩ := ih (by rw [hp.failure, hf]; rfl)
    refine ⟨_ :: records, called :: calls, ?_, hs.cons c c.describe d, hl.trans hl',
      ha.cons hcs c.describe d⟩
    rw [hr, hd, List.append_assoc]
    rfl
  | @stopped k c st st' e cs hp =>
    obtain ⟨d, hd⟩ := hp.record
    obtain ⟨called, hl, hcs⟩ := hp.calls
    have hfail : st'.result.failure = failureOf? k c.action.kind (.error e) := by
      rw [hp.failure, hf, Option.or_none]
    rw [hfail]
    exact ⟨_, [called], hd, .singleton k c cs e c.describe d, by simpa using hl,
      .singleton hcs c.describe d⟩

theorem ready {files : Path → Prop} (h : Course p tourId k cues st x st')
    (hr : Ready p.config.directory files st.scene.files) :
    Ready p.config.directory files st'.scene.files := by
  induction h with
  | done => exact hr
  | passed hp _ ih => exact ih (hp.ready files hr)
  | stopped _ hp => exact hp.ready files hr

/-- Steps that raise nothing where some files can be written end well. -/
theorem ending_ok {files : Path → Prop} (h : Course p tourId k cues st x st')
    (hn : ∀ i c, cues[i]? = some c → ∀ s : State σ,
      Ready p.config.directory files s.scene.files →
      ∀ f, (p.playCue tourId (k + i) c (p.clocked s)).1 ≠ .error (.raised f))
    (hr : Ready p.config.directory files st.scene.files) : x = .ok () := by
  induction h with
  | done => rfl
  | @passed k c cs st st' st'' x hp _ ih =>
    refine ih (fun i d hi s hs => ?_) (hp.ready files hr)
    rw [Nat.add_right_comm]
    exact hn (i + 1) d hi s hs
  | @stopped k c st st' e cs hp =>
    cases e with
    | failed => rfl
    | raised f => exact absurd hp.play (hn 0 c rfl st hr f)

end Course

/-- A run comes to a step in a state: every step before it passes. -/
inductive Reaches (p : Player ι σ) (tourId : String) :
    Nat → List Cue → State σ → Nat → Cue → State σ → Prop
  | here (k : Nat) (c : Cue) (cs : List Cue) (st : State σ) : Reaches p tourId k (c :: cs) st k c st
  | later {k i : Nat} {c d : Cue} {cs : List Cue} {st st' st'' : State σ}
    (hp : p.recordCue tourId k c st = (.ok true, st'))
    (h : Reaches p tourId (k + 1) cs st' i d st'') : Reaches p tourId k (c :: cs) st i d st''

theorem Played.goesOn_true {p : Player ι σ} {tourId : String} {k : Nat} {c : Cue}
    {st st' st'' : State σ} {r : Except Stop Unit} (h : Played p tourId k c st r st')
    (hr : p.recordCue tourId k c st = (.ok true, st'')) : r = .ok () ∧ st' = st'' := by
  rw [h.recordCue, Prod.mk.injEq] at hr
  refine ⟨?_, hr.2⟩
  rcases r with (⟨why, m⟩ | f) | ⟨⟩
  · cases hr.1
  · cases hr.1
  · rfl

/-- A step that does not pass ends the run with its failure. -/
theorem Course.ending_of_reaches {p : Player ι σ} {tourId : String} {k i : Nat} {cues : List Cue}
    {c : Cue} {st s st' : State σ} {x : Except Fault Unit} {e : Stop}
    (h : Course p tourId k cues st x st') (hr : Reaches p tourId k cues st i c s)
    (he : (p.playCue tourId i c (p.clocked s)).1 = .error e) :
    x = e.ending ∧ st'.result.failure = failureOf? i c.action.kind (.error e) := by
  induction hr with
  | here k c cs st =>
    cases h with
    | passed hp _ =>
      rw [hp.play] at he
      cases he
    | stopped _ hp =>
      rw [hp.play] at he
      cases he
      refine ⟨rfl, ?_⟩
      rw [hp.failure]
      cases e <;> rfl
  | later hrec _ ih =>
    cases h with
    | passed hp h =>
      obtain ⟨-, rfl⟩ := hp.goesOn_true hrec
      exact ih h he
    | stopped _ hp =>
      obtain ⟨hc, -⟩ := hp.goesOn_true hrec
      cases hc

/-- Every step passes in the state that the steps before it leave. -/
def PassesAll (p : Player ι σ) (tourId : String) : Nat → List Cue → State σ → Prop
  | _, [], _ => True
  | k, c :: cs, st => (p.playCue tourId k c (p.clocked st)).1 = .ok () ∧
      PassesAll p tourId (k + 1) cs (p.recordCue tourId k c st).2

/-- There is no failure exactly if every step passed. -/
theorem Course.failure_eq_none_iff {p : Player ι σ} {tourId : String} {k : Nat} {cues : List Cue}
    {st st' : State σ} {x : Except Fault Unit} (h : Course p tourId k cues st x st')
    (hf : st.result.failure = none) :
    st'.result.failure = none ↔ PassesAll p tourId k cues st := by
  induction h with
  | done => simp [hf, PassesAll]
  | passed hp _ ih =>
    rw [ih (by rw [hp.failure, hf]; rfl), PassesAll, hp.play, hp.recordCue]
    simp
  | @stopped k c st st' e cs hp =>
    rw [hp.failure, PassesAll, hp.play]
    cases e <;> simp [failureOf?]

/-- A failure that is there after a step was there before, or is the step's; and that is over the
configuration only if something is not set. -/
theorem recordCue_failure {p : Player ι σ} {tourId : String} {index : Nat} {c : Cue}
    {st : State σ} {f : Failure}
    (hf : (p.recordCue tourId index c st).2.result.failure = some f) :
    st.result.failure = some f ∨
      f.step = index ∧ (f.kind = .configuration → Unset p.config c) := by
  have hclock : (p.clocked st).result = st.result := rfl
  unfold Player.clocked at hclock
  rw [recordCue_apply] at hf
  rcases hnow : p.now (ε := Fault) id st with ⟨e | start, st₁⟩
  · rw [hnow] at hf hclock
    left
    rw [← hf, ← hclock]
  rw [hnow] at hf hclock
  have hb : Behaves p (fun _ => True) (stepPlan p.config index c) (Unset p.config c)
      False (p.playCue tourId index c) := .playCue False.elim
  have ho := (hb st₁).outcome
  have hu := (hb st₁).unset
  dsimp only at hf hclock
  rw [conclude_failure, ho.failure, hclock] at hf
  generalize (p.playCue tourId index c st₁).1 = r at hf hu
  rcases r with (⟨why, m⟩ | g) | ⟨⟩
  · cases hf
    exact .inr ⟨rfl, fun hk => hu m (by cases hk; rfl)⟩
  · cases hf
    exact .inr ⟨rfl, fun hk => by cases hk⟩
  · exact .inl hf

/-- The failure that a run ends with is that of one of its steps. -/
theorem playCues_failure {p : Player ι σ} {tourId : String} {k : Nat} {cs : List Cue}
    {st : State σ} {f : Failure} (hf : (p.playCues tourId k cs st).2.result.failure = some f) :
    st.result.failure = some f ∨ ∃ i c, cs[i]? = some c ∧ f.step = k + i ∧
      (f.kind = .configuration → Unset p.config c) := by
  induction cs generalizing k st with
  | nil => exact .inl hf
  | cons c cs ih =>
    have hfirst (st' : State σ) (hst : (p.recordCue tourId k c st).2 = st')
        (hf : st'.result.failure = some f) : st.result.failure = some f ∨
          ∃ i d, (c :: cs)[i]? = some d ∧ f.step = k + i ∧
            (f.kind = .configuration → Unset p.config d) := by
      rw [← hst] at hf
      rcases recordCue_failure hf with hf | ⟨hs, hu⟩
      · exact .inl hf
      · exact .inr ⟨0, c, rfl, hs, hu⟩
    rw [Player.playCues, Attempt.bind_apply] at hf
    rcases hrec : p.recordCue tourId k c st with ⟨e | _ | _, st'⟩
    · rw [hrec] at hf
      exact hfirst st' (by rw [hrec]) hf
    · rw [hrec] at hf
      exact hfirst st' (by rw [hrec]) hf
    · rw [hrec] at hf
      rcases ih hf with hf | ⟨i, d, hd, hs, hu⟩
      · exact hfirst st' (by rw [hrec]) hf
      · exact .inr ⟨i + 1, d, hd, by omega, hu⟩

end Run

end Walkthrough
