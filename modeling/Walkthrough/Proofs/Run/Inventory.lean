import Walkthrough.Proofs.Json.RoundTrip
import Walkthrough.Proofs.Run.Ending
import Walkthrough.Proofs.Run.ShotFile
/-!
What is at hand while the steps of a run are played: values that read back, and in the queue's file
the lines of the jobs that were queued. Every part of a step keeps this, however the part ends.
-/

namespace Walkthrough

open Json (ReadsBack)

/-- The parts of an entry are of the types that a step gives them. -/
structure Spoken.Typed (e : Spoken) : Prop where
  step : ReadsBack (.int e.step)
  text : ∃ t, e.text = .str t

/-- So are those of a screenshot. -/
structure Shot.Typed (s : Shot) : Prop where
  step : ReadsBack (.int s.step)
  fullPage : ∃ b, s.fullPage = .bool b

theorem Spoken.plain_listJson {room : Nat} {es : List Spoken} (h : ∀ e ∈ es, e.Typed) :
    (listJson es).Plain (room + 2) := by
  refine Json.plain_arr.mpr (Json.plainItems_iff.mpr (List.forall_mem_map.mpr fun e he => ?_))
  obtain ⟨hi, t, ht⟩ := h e he
  simp [Json.PlainMembers, Json.int, hi, ht]

theorem Shot.plain_listJson {room : Nat} {shots : List Shot} (h : ∀ s ∈ shots, s.Typed) :
    (listJson shots).Plain (room + 2) := by
  refine Json.plain_arr.mpr (Json.plainItems_iff.mpr (List.forall_mem_map.mpr fun s hs => ?_))
  obtain ⟨hi, b, hb⟩ := h s hs
  simp [Json.PlainMembers, Json.int, hi, hb]

/-- The parts of a job are of the types that a step gives them. -/
structure Job.Typed (j : Job) : Prop where
  step : ReadsBack (.int j.step)
  screenshot : ∃ s, j.screenshot = .str s
  instructions : ∃ s, j.instructions = .str s

/-- What the queue's file is read as when some jobs have been queued. -/
def queued (file : Path) (jobs : List Job) : Except FileFault Text.Utf8.Bytes :=
  if jobs = [] then .error ⟨.absent, file⟩
  else .ok (Text.Utf8.encode (jobs.flatMap (·.line.toList)))

theorem queued_append (file : Path) (jobs : List Job) (j : Job) :
    queued file (jobs ++ [j]) =
      .ok ((queued file jobs).toOption.getD [] ++ Text.Utf8.encode j.line.toList) := by
  have hold : (queued file jobs).toOption.getD [] =
      Text.Utf8.encode (jobs.flatMap (·.line.toList)) := by
    unfold queued
    split_ifs with h
    · rw [h]
      rfl
    · rfl
  rw [hold, queued, if_neg (by simp), List.flatMap_append, Text.Utf8.encode_append]
  simp

/-- The screenshot that a markup with a target is for is a text. -/
theorem Result.exists_markedShot (r : Result) (target : Option String) :
    ∃ s, r.markedShot (target.map .str) = .str s := by
  cases target with
  | none => exact ⟨_, rfl⟩
  | some name =>
    unfold Result.markedShot
    dsimp only [Option.map_some]
    cases (Json.str name).str?.bind (Shot.named? r.shots) with
    | none => exact ⟨name, rfl⟩
    | some shot => exact ⟨shot.path, rfl⟩

namespace Run

variable {ε ι σ α β : Type}

/-- Two states have the same files and the same result, and the later one no fewer notes. -/
structure Unmoved (st st' : State σ) : Prop where
  files : st'.scene.files = st.scene.files
  result : st'.result = st.result
  notes : st.notes <+: st'.notes

theorem Unmoved.refl (st : State σ) : Unmoved st st := ⟨rfl, rfl, List.prefix_rfl⟩

theorem Unmoved.trans {st st' st'' : State σ} (h : Unmoved st st') (h' : Unmoved st' st'') :
    Unmoved st st'' :=
  ⟨h'.files.trans h.files, h'.result.trans h.result, h.notes.trans h'.notes⟩

/-- An action touches neither the files nor the result of a run. -/
def Still (a : Play ε σ α) : Prop := ∀ st : State σ, Unmoved st (a st).2

/-- An action that finds files and a result of one kind leaves some of another, and takes no notes
away. -/
def Leaves (Q Q' : Store → Result → Prop) (a : Play ε σ α) : Prop :=
  ∀ st : State σ, st.notes <+: (a st).2.notes ∧
    (Q st.scene.files st.result → Q' (a st).2.scene.files (a st).2.result)

theorem snd_onFault (a : Play Stop σ α) (handle : Fault → Play Stop σ α) (st : State σ) :
    (onFault a handle st).2 = (a st).2 ∨ ∃ f, (onFault a handle st).2 = (handle f (a st).2).2 := by
  rw [onFault_apply]
  rcases a st with ⟨(_ | f) | x, st'⟩
  · exact .inl rfl
  · exact .inr ⟨f, rfl⟩
  · exact .inl rfl

namespace Still

variable {p : Player ι σ} {a : Play ε σ α} {f : α → Play ε σ β}

theorem bind (ha : Still a) (hf : ∀ x, Still (f x)) : Still (a >>= f) := by
  intro st
  exact Attempt.bind_keeps (I := Unmoved st) (fun s hs => hs.trans (ha s))
    (fun x s hs => hs.trans (hf x s)) st (.refl st)

theorem onFault {a : Play Stop σ α} {handle : Fault → Play Stop σ α} (ha : Still a)
    (hh : ∀ g, Still (handle g)) : Still (onFault a handle) := by
  intro st
  obtain h | ⟨g, h⟩ := snd_onFault a handle st
  · rw [h]
    exact ha st
  · rw [h]
    exact (ha st).trans (hh g _)

theorem pure (x : α) : Still (Pure.pure x : Play ε σ α) := .refl

theorem throw (e : ε) : Still (MonadExcept.throw e : Play ε σ α) := .refl

theorem decided (x : Except ε α) : Still (Attempt.decided x : Play ε σ α) := .refl

theorem note (line : String) : Still (note line : Play ε σ Unit) :=
  fun _ => ⟨rfl, rfl, List.prefix_append _ _⟩

theorem act {w : Act σ α} (cause : Fault → ε) (h : ∀ sc, (w sc).2.files = sc.files) :
    Still (onScene cause w : Play ε σ α) := fun _ => ⟨h _, rfl, List.prefix_rfl⟩

theorem log (level : Level) (m : String) : Still (log level m : Play Stop σ Unit) :=
  act _ fun _ => rfl

theorem ask (c : PageCall) : Still (p.ask c) := act _ fun _ => rfl

theorem now (cause : Fault → ε) : Still (p.now cause) := act _ fun _ => rfl

theorem timeLeft (deadline : ι) : Still (p.timeLeft deadline) :=
  bind (now _) fun _ => decided _

theorem awaitEvent (name : Json) (timeout : Number) (route : Option String) :
    Still (p.awaitEvent name timeout route) := by
  refine onFault (ask _) fun g => ?_
  split_ifs <;> exact throw _

theorem openRoute (key : Json) : Still (p.openRoute key) := by
  have hready : Still (p.awaitReady key) := by
    unfold Player.awaitReady
    cases p.config.readyEvent with
    | none => exact pure ()
    | some e => exact awaitEvent _ _ _
  rw [Player.openRoute]
  refine bind (decided _) fun found => ?_
  cases found with
  | none => exact throw _
  | some path =>
    refine bind (decided _) fun url => bind (onFault (ask _) fun g => ?_) fun status => ?_
    · split_ifs <;> exact throw _
    · cases status with
      | none => exact hready
      | some n =>
        dsimp only
        split_ifs
        · exact bind (throw _) fun _ => hready
        · exact hready

theorem giveUp (anchor verb timeout : String) :
    Still (p.giveUp anchor verb timeout : Play Stop σ α) := by
  refine bind (ask _) fun n => ?_
  split_ifs <;> exact throw _

theorem tryOnce (anchor : String) (act : Number → PageCall) (deadline : ι) (left : Int) :
    Still (p.tryOnce anchor act deadline left) := by
  refine bind (ask _) fun _ => bind (timeLeft _) fun left => ?_
  split_ifs
  · exact pure _
  · exact bind (ask _) fun _ => pure _

theorem attempts (anchor verb : String) (act : Number → PageCall) (deadline : ι) (tries : Nat)
    (left : Int) : Still (p.attempts anchor verb act deadline tries left) := by
  induction tries generalizing left with
  | zero => exact pure _
  | succ tries ih =>
    have hagain : Still (do p.attempts anchor verb act deadline tries (← p.timeLeft deadline)) :=
      bind (timeLeft _) ih
    rw [Player.attempts_succ]
    split_ifs
    · exact pure _
    refine onFault (bind (tryOnce _ _ _ _) fun _ => pure _) fun g => ?_
    have hrest (line : String) : Still (do
        Run.log .debug line
        let _ : Unit ← p.ask (.pause (.num retryInterval))
        p.attempts anchor verb act deadline tries (← p.timeLeft deadline)) :=
      bind (log _ _) fun _ => bind (ask _) fun _ => hagain
    unfold Player.retry
    split_ifs
    · exact pure _
    · exact bind (throw _) fun _ => bind (throw _) fun _ => hrest _
    · exact bind (throw _) fun _ => hrest _
    · exact bind (throw _) fun _ => hrest _
    · exact hrest _

theorem interact (anchor verb : String) (act : Number → PageCall) (timeout : Option Json) :
    Still (p.interact anchor verb act timeout) := by
  rw [Player.interact]
  refine bind (now _) fun start => bind (decided _) fun time => bind (decided _) fun deadline =>
    bind (timeLeft _) fun left => bind (attempts _ _ _ _ _ _) fun done => ?_
  cases done with
  | none => exact throw _
  | some done =>
    cases done with
    | true => exact pure _
    | false => exact giveUp _ _ _

theorem fillValue (anchor : String) (value envName : Option Json) :
    Still (p.fillValue anchor value envName) := by
  unfold Player.fillValue
  cases envName with
  | some name =>
    refine bind (decided _) fun found => ?_
    cases found with
    | none => exact throw _
    | some t => exact pure _
  | none =>
    cases value with
    | none => exact throw _
    | some v => exact pure _

end Still

namespace Leaves

variable {Q Q' Q'' : Store → Result → Prop} {a : Play ε σ α} {f : α → Play ε σ β}

theorem of_still (h : Still a) : Leaves Q Q a := by
  intro st
  rw [(h st).files, (h st).result]
  exact ⟨(h st).notes, id⟩

theorem mono (h : Leaves Q Q' a) (hw : ∀ fs r, Q' fs r → Q'' fs r) : Leaves Q Q'' a :=
  fun st => (h st).imp_right fun h hq => hw _ _ (h hq)

/-- What comes of the first part holds of the whole if that fails. -/
theorem bind (ha : Leaves Q Q' a) (hf : ∀ x, Leaves Q' Q'' (f x))
    (hw : ∀ fs r, Q' fs r → Q'' fs r) : Leaves Q Q'' (a >>= f) := by
  intro st
  obtain ⟨hn, h⟩ := ha st
  rw [Attempt.bind_apply]
  rcases has : a st with ⟨e | x, st'⟩
  · rw [has] at hn h
    exact ⟨hn, fun hq => hw _ _ (h hq)⟩
  · rw [has] at hn h
    obtain ⟨hn', h'⟩ := hf x st'
    exact ⟨hn.trans hn', fun hq => h' (h hq)⟩

theorem still_bind (ha : Still a) (hf : ∀ x, Leaves Q Q' (f x)) (hw : ∀ fs r, Q fs r → Q' fs r) :
    Leaves Q Q' (a >>= f) := bind (of_still ha) hf hw

theorem bind_still (ha : Leaves Q Q' a) (hf : ∀ x, Still (f x)) : Leaves Q Q' (a >>= f) :=
  bind ha (fun x => of_still (hf x)) fun _ _ h => h

theorem onFault {a : Play Stop σ α} {handle : Fault → Play Stop σ α} (ha : Leaves Q Q' a)
    (hh : ∀ g, Still (handle g)) : Leaves Q Q' (onFault a handle) := by
  intro st
  obtain he | ⟨g, he⟩ := snd_onFault a handle st
  · rw [he]
    exact ha st
  · rw [he, (hh g _).files, (hh g _).result]
    exact (ha st).imp_left fun hn => hn.trans (hh g _).notes

theorem file {w : Filing α} {cause : Fault → ε} (h : ∀ fs r, Q fs r → Q' (w fs).2 r) :
    Leaves Q Q' (onScene cause (Act.file w) : Play ε σ α) := fun _ => ⟨List.prefix_rfl, h _ _⟩

theorem update {g : Result → Result} (h : ∀ fs r, Q fs r → Q' fs (g r)) :
    Leaves Q Q' (Run.update g : Play ε σ Unit) := fun _ => ⟨List.prefix_rfl, h _ _⟩

theorem outcome {ε' : Type} (h : Leaves Q Q' a) :
    Leaves Q Q' (Attempt.outcome a : Play ε' σ (Except ε α)) := h

theorem guarded {a : Play Stop σ α} (ha : Leaves Q Q' a) : Leaves Q Q' (guarded a) := by
  refine onFault ha fun g => ?_
  split_ifs <;> exact .throw _

theorem thenAlways {last : Play ε σ Unit} (ha : Leaves Q Q' a) (hl : Leaves Q' Q' last) :
    Leaves Q Q' (Attempt.thenAlways a last) :=
  bind ha.outcome (fun _ => hl.bind_still fun _ => .decided _) fun _ _ h => h

variable {p : Player ι σ} {index : Nat}

/-- A capture leaves what its screenshot leaves, if its moment has come. -/
theorem capture {moment : Moment} {capture : Option Capture} (hw : ∀ fs r, Q fs r → Q' fs r)
    (hshot : ∀ c ∈ capture, c.moment = moment →
      Leaves Q Q' (p.shoot index (.str c.name) (c.fullPage.map .bool))) :
    Leaves Q Q' (p.capture index moment
      (capture.map fun c => ⟨.str c.moment.word, .str c.name, c.fullPage.map .bool⟩)) := by
  have hnone : Leaves Q Q' (pure () : Play Stop σ Unit) := (of_still (.pure ())).mono hw
  cases capture with
  | none => exact hnone
  | some c =>
    unfold Player.capture
    dsimp only [Option.map_some]
    split_ifs with hm
    · exact hnone
    · have hmoment : c.moment = moment := by
        cases hcm : c.moment <;> cases moment <;> simp [hcm, Moment.word] at hm ⊢
      refine .onFault (hshot c rfl hmoment) fun g => ?_
      split_ifs
      · exact .bind (.throw _) fun _ => .bind (.log _ _) fun _ => .note _
      · exact .bind (.log _ _) fun _ => .note _

/-- An action leaves what the text it speaks, its screenshot or its markup leaves; no other action
touches the files or the result. -/
theorem perform {tourId : String} {s : Step} (hw : ∀ fs r, Q fs r → Q' fs r)
    (hspeak : ∀ text, Leaves Q Q' (Player.speak index (.str text) .narration : Play Stop σ Unit))
    (hshot : ∀ name label fullPage, s.action = .screenshot name label fullPage →
      Leaves Q Q' (p.shoot index (.str name) (fullPage.map .bool)))
    (hmarkup : ∀ label instructions target, s.action = .annotate label instructions target →
      Leaves Q Q' (p.queueMarkup tourId index (s.cue.markupLabel index)
        ⟨.str instructions, target.map .str⟩)) :
    Leaves Q Q' (p.perform tourId index s.cue) := by
  have hstill {a : Play Stop σ Unit} (h : Still a) : Leaves Q Q' a := (of_still h).mono hw
  obtain ⟨a, x⟩ := s
  cases a with
  | narration message => exact (hspeak message).bind_still fun _ => .note _
  | goto key => exact hstill (.openRoute _)
  | click label anchor timeout => exact hstill (.interact _ _ _ _)
  | fill label anchor value envName timeout =>
    exact hstill (.bind (.fillValue _ _ _) fun v => .interact _ _ _ _)
  | waitForEvent label event timeout => exact hstill (.awaitEvent _ _ _)
  | expectVisible label anchor timeout =>
    refine hstill (.onFault (.ask _) fun g => ?_)
    split_ifs
    · exact .giveUp _ _ _
    · exact .throw _
  | waitMs duration => exact hstill (.ask _)
  | screenshot name label fullPage => exact hshot name label fullPage rfl
  | annotate label instructions target => exact hmarkup label instructions target rfl

/-- What is done about the end of a step changes no more of the result than its failure and its
records. -/
theorem conclude {c : Cue} {start : ι}
    (hfail : ∀ fs r f, Q fs r → Q fs { r with failure := some f })
    (hrecord : ∀ fs r x, Q fs r → Q fs { r with records := r.records ++ [x] })
    (end_ : Except Stop Unit) : Leaves Q Q (p.conclude index c start end_) := by
  have hrecord (passed : Bool) : Leaves Q Q (p.record index c start passed) :=
    still_bind (.now _) (fun _ => update fun fs r h => hrecord fs r _ h) fun _ _ h => h
  have hfail (f : Failure) :
      Leaves Q Q (Run.update fun r => { r with failure := some f } : Play Fault σ Unit) :=
    update fun fs r h => hfail fs r f h
  rcases end_ with (⟨why, m⟩ | f) | ⟨⟩
  · exact bind (hfail _) (fun _ => bind_still (hrecord false) fun _ => .bind (.note _) fun _ =>
      .bind (.act _ fun _ => rfl) fun _ => .pure _) fun _ _ h => h
  · exact bind (hfail _) (fun _ => bind_still (hrecord false) fun _ => .bind (.note _) fun _ =>
      .throw _) fun _ _ h => h
  · exact bind_still (hrecord true) fun _ => .pure _

end Leaves

namespace Player

/-- What is left when a step begins, and by its parts one after the other: the capture before its
action, the action, the capture after it, and its markup. Its record keeps what is left. -/
structure Passes (p : Player ι σ) (tourId : String) (index : Nat) (s : Step)
    (Q Q₁ Q₂ Q₃ Q' : Store → Result → Prop) : Prop where
  speak : ∀ text source, Leaves Q Q (speak index (.str text) source : Play Stop σ Unit)
  before : Leaves Q Q₁ (p.capture index .before s.cue.extras.capture)
  action : Leaves Q₁ Q₂ (p.perform tourId index s.cue)
  after : Leaves Q₂ Q₃ (p.capture index .after s.cue.extras.capture)
  markup : ∀ m : Markup, Leaves Q₃ Q' (p.queueMarkup tourId index (s.cue.markupLabel index)
    ⟨.str m.instructions, m.target.map .str⟩)
  fail : ∀ f : Failure, f.step = index →
    Leaves Q' Q' (update fun r => { r with failure := some f } : Play Fault σ Unit)
  record : ∀ start passed, Leaves Q' Q' (p.record index s.cue start passed)
  first : ∀ fs r, Q fs r → Q₁ fs r
  second : ∀ fs r, Q₁ fs r → Q₂ fs r
  third : ∀ fs r, Q₂ fs r → Q₃ fs r
  last : ∀ fs r, Q₃ fs r → Q' fs r

namespace Passes

variable {p : Player ι σ} {tourId : String} {index : Nat} {s : Step}
  {Q Q₁ Q₂ Q₃ Q' : Store → Result → Prop} (h : p.Passes tourId index s Q Q₁ Q₂ Q₃ Q')

include h

theorem act : Leaves Q Q₃ (p.act tourId index s.cue) :=
  .bind h.before (fun _ => .bind h.action (fun _ => h.after) h.third)
    fun _ _ hq => h.third _ _ (h.second _ _ hq)

theorem actDelayed : Leaves Q Q₃ (p.actDelayed tourId index s.cue) := by
  have hmono (fs : Store) (r : Result) (hq : Q fs r) : Q₃ fs r :=
    h.third _ _ (h.second _ _ (h.first _ _ hq))
  have hspoken : Leaves Q Q₃ (p.actSpoken tourId index s.cue) := by
    have htext : s.cue.extras.narration = s.extras.narration.map .str := rfl
    unfold actSpoken
    rw [htext]
    cases hn : s.extras.narration with
    | none => exact h.act
    | some t =>
      rw [Option.map_some, Option.filter_some]
      split_ifs
      · exact .bind (h.speak t .extras) (fun _ => h.act) hmono
      · exact h.act
  unfold Player.actDelayed
  cases s.cue.extras.preDelay.filter (·.isTruthy) with
  | none => exact hspoken
  | some t =>
    exact .still_bind (.note _) (fun _ => .still_bind (.ask _) (fun _ => hspoken) hmono) hmono

theorem playCue : Leaves Q Q' (p.playCue tourId index s.cue) := by
  have hmono (fs : Store) (r : Result) (hq : Q fs r) : Q' fs r :=
    h.last _ _ (h.third _ _ (h.second _ _ (h.first _ _ hq)))
  have hmarkup : s.cue.extras.markup =
    s.extras.markup.map fun m => ⟨.str m.instructions, m.target.map .str⟩ := rfl
  rw [playCue_eq, hmarkup]
  refine .still_bind (.ask _) (fun url => .still_bind (.note _) (fun _ => .still_bind (.log _ _)
    (fun _ => .bind (.guarded h.actDelayed) (fun _ => ?_) h.last) hmono) hmono) hmono
  cases s.extras.markup with
  | none => exact (Leaves.of_still (.pure ())).mono h.last
  | some m => exact h.markup m

/-- A step leaves what its parts leave, whether it passes or not. -/
theorem recordCue : Leaves Q Q' (p.recordCue tourId index s.cue) := by
  have hmono (fs : Store) (r : Result) (hq : Q fs r) : Q' fs r :=
    h.last _ _ (h.third _ _ (h.second _ _ (h.first _ _ hq)))
  unfold Player.recordCue
  refine .still_bind (.now _) (fun start => .bind (.outcome h.playCue) (fun r => ?_)
    fun _ _ hq => hq) hmono
  rcases r with (⟨why, m⟩ | f) | ⟨⟩
  · exact .bind (h.fail _ rfl) (fun _ => .bind_still (h.record start false) fun _ =>
      .bind (.note _) fun _ => .bind (.act _ fun _ => rfl) fun _ => .pure _) fun _ _ hq => hq
  · exact .bind (h.fail _ rfl) (fun _ => .bind_still (h.record start false) fun _ =>
      .bind (.note _) fun _ => .throw _) fun _ _ hq => hq
  · exact .bind_still (h.record start true) fun _ => .pure _

end Passes

variable (p : Player ι σ)

def ownFiles : List Path := ownNames.map fun name : String => p.config.directory / name

def queueFile : Path := p.config.directory / "annotations.jsonl"

theorem own_mem_ownFiles {name : String} (h : name ∈ ownNames) :
    p.config.directory / name ∈ p.ownFiles := List.mem_map_of_mem h

/-- The files of a run can be written, the queue's file holds the lines of the jobs that were
queued, and what is in memory can be read back when it is written. -/
structure Inventory (n : Nat) (fs : Store) (r : Result) : Prop where
  ready : Ready p.config.directory (· ∈ p.ownFiles) fs
  queue : fs.read p.queueFile = queued p.queueFile r.jobs
  transcript : ∀ e ∈ r.transcript, e.Typed
  shots : ∀ s ∈ r.shots, s.Typed
  jobs : ∀ j ∈ r.jobs, j.Typed
  count : r.jobs.length ≤ n
  records : ∀ x ∈ r.records, ∀ room, x.toJson.Plain (room + 1)
  failure : ∀ f ∈ r.failure, ∀ room, f.toJson.Plain (room + 1)

section

variable {p} {n : Nat} {fs : Store} {r : Result}

theorem Inventory.mono {m : Nat} (h : p.Inventory n fs r) (hm : n ≤ m) : p.Inventory m fs r :=
  { h with count := h.count.trans hm }

variable {index : Nat} (hi : ReadsBack (.int index))

include hi

theorem speak_leaves (text : String) (source : SpokenBy) :
    Leaves (p.Inventory n) (p.Inventory n)
      (speak index (.str text) source : Play Stop σ Unit) := by
  refine .update fun fs r h => ?_
  refine { h with transcript := fun e he => ?_ }
  rcases List.mem_append.mp he with he | he
  · exact h.transcript e he
  · rw [List.mem_singleton.mp he]
    exact ⟨hi, text, rfl⟩

theorem keepShot_leaves (name : String) (full : Bool) (image : Text.Utf8.Bytes) :
    Leaves (p.Inventory n) (p.Inventory n) (p.keepShot index name (.bool full) image) := by
  have hm := shotPath_name p.config.directory index name
  have hne {s : String} (hs : s.toList.getLast? ≠ some 'g') : s ≠ shotName index name :=
    fun h => hs (h ▸ getLast?_shotName index name)
  have hwrite : Leaves (p.Inventory n) (p.Inventory n)
      (onScene .raised (Act.file (Filing.write (shotPath p.config.directory index name) image)) :
        Play Stop σ Unit) := by
    refine .file fun fs r h => ?_
    have hs := Filing.write_sameDirectories fs (shotPath p.config.directory index name) image
    refine { h with ready := h.ready.of_sameDirectories hs, queue := ?_ }
    rw [← h.queue]
    obtain he | hg := Filing.write_cases fs (shotPath p.config.directory index name) image
    · rw [he]
    · obtain ⟨loc, hl, -⟩ := h.ready.writable p.queueFile (p.own_mem_ownFiles (by decide))
      exact hg.read_eq_of_ne hm (hne (by decide)).symm
        (Path.getLast?_join_name _ _ (by decide +kernel)) (by decide) (hne (by decide)) hl
  refine .bind hwrite (fun _ => .still_bind (.note _) (fun _ => .update fun fs r h => ?_)
    fun _ _ h => h) fun _ _ h => h
  refine { h with shots := fun s hs => ?_ }
  rcases List.mem_append.mp hs with hs | hs
  · exact h.shots s hs
  · rw [List.mem_singleton.mp hs]
    exact ⟨hi, full, rfl⟩

theorem shoot_leaves (name : String) (fullPage : Option Bool) :
    Leaves (p.Inventory n) (p.Inventory n)
      (p.shoot index (.str name) (fullPage.map .bool)) := by
  have hf : (fullPage.map Json.bool).getD (.bool true) = .bool (fullPage.getD true) :=
    Option.getD_map ..
  rw [shoot_str, hf]
  exact .still_bind (.ask _) (fun image => keepShot_leaves hi name _ image) fun _ _ h => h

/-- A job that is queued has its line in the queue's file. -/
theorem queueMarkup_leaves (tourId label instructions : String) (target : Option String) :
    Leaves (p.Inventory n) (p.Inventory (n + 1))
      (p.queueMarkup tourId index label ⟨.str instructions, target.map .str⟩) := by
  have hnotes : Leaves (fun _ _ => True) (fun _ _ => True)
      (p.queueMarkup tourId index label ⟨.str instructions, target.map .str⟩) :=
    .still_bind .refl (fun st => .bind (.file fun _ _ h => h) (fun _ => .bind_still
      (.update fun _ _ h => h) fun _ => .note _) fun _ _ h => h) fun _ _ h => h
  refine fun st => ⟨(hnotes st).1, fun h => ?_⟩
  have hget : (get : Play Stop σ (State σ)) st = (.ok st, st) := rfl
  unfold queueMarkup
  rw [Attempt.bind_ok hget]
  set job : Job := ⟨tourId, index, label, st.result.markedShot (target.map .str),
    .str instructions⟩ with hjob
  have hw : st.scene.files.Writable p.queueFile :=
    h.ready.writable _ (p.own_mem_ownFiles (by decide))
  obtain ⟨fs, ha, hs, hr⟩ :=
    Filing.append_read_of_writable hw (Text.Utf8.encode job.line.toList)
  have hfile : (onScene .raised (Act.file (job.append p.queueFile)) : Play Stop σ Unit) st =
      (.ok (), { st with scene := { st.scene with files := fs } }) := by
    have hj : job.append p.queueFile st.scene.files = (.ok (), fs) :=
      (h.ready.append_job job).trans ha
    unfold onScene Act.file
    rw [Attempt.focus_apply, Attempt.focus_apply, hj]
    rfl
  dsimp only
  rw [← queueFile]
  rw [Attempt.bind_ok hfile]
  refine { h with ready := h.ready.of_sameDirectories hs, queue := ?_, jobs := ?_, count := ?_ }
  · change fs.read p.queueFile = queued p.queueFile (st.result.jobs ++ [job])
    rw [hr, h.queue, queued_append]
  · intro j hj
    rcases List.mem_append.mp hj with hj | hj
    · exact h.jobs j hj
    · rw [List.mem_singleton.mp hj]
      exact ⟨hi, st.result.exists_markedShot target, instructions, rfl⟩
  · change (st.result.jobs ++ [job]).length ≤ n + 1
    rw [List.length_append]
    exact Nat.add_le_add_right h.count 1

theorem perform_leaves (tourId : String) (s : Step) :
    Leaves (p.Inventory n) (p.Inventory (n + 1)) (p.perform tourId index s.cue) := by
  have hmore (fs : Store) (r : Result) (h : p.Inventory n fs r) : p.Inventory (n + 1) fs r :=
    h.mono (Nat.le_succ n)
  apply Leaves.perform hmore
  · exact fun text => (speak_leaves hi text .narration).mono hmore
  · exact fun name _ fullPage _ => (shoot_leaves hi name fullPage).mono hmore
  · exact fun _ instructions target _ => queueMarkup_leaves hi tourId _ instructions target

theorem fail_leaves {f : Failure} (hf : f.step = index) :
    Leaves (p.Inventory n) (p.Inventory n)
      (update fun r => { r with failure := some f } : Play Fault σ Unit) := by
  refine .update fun fs r h => { h with failure := fun g hg room => ?_ }
  cases hg
  simp [Failure.toJson, Json.PlainMembers, Json.int, hf, hi]

theorem record_leaves (he : ∀ start t, ReadsBack (p.timing.elapsed start t)) (c : Cue) (start : ι)
    (passed : Bool) :
    Leaves (p.Inventory n) (p.Inventory n) (p.record index c start passed) := by
  refine .still_bind (.now _) (fun t => .update fun fs r h => ?_) fun _ _ h => h
  refine { h with records := fun x hx room => ?_ }
  rcases List.mem_append.mp hx with hx | hx
  · exact h.records x hx room
  · rw [List.mem_singleton.mp hx]
    simp [Record.toJson, Json.PlainMembers, Json.int, hi, he]

/-- A step queues two jobs at most: one of its action, and one of its markup. -/
theorem passes (he : ∀ start t, ReadsBack (p.timing.elapsed start t)) (tourId : String) (s : Step) :
    p.Passes tourId index s (p.Inventory n) (p.Inventory n) (p.Inventory (n + 1))
      (p.Inventory (n + 1)) (p.Inventory (n + 2)) where
  speak text source := speak_leaves hi text source
  before := .capture (fun _ _ h => h) fun c _ _ => shoot_leaves hi c.name c.fullPage
  action := perform_leaves hi tourId s
  after := .capture (fun _ _ h => h) fun c _ _ => shoot_leaves hi c.name c.fullPage
  markup m := queueMarkup_leaves hi tourId _ m.instructions m.target
  fail _ hf := fail_leaves hi hf
  record start passed := record_leaves hi he s.cue start passed
  first _ _ h := h
  second _ _ h := h.mono (Nat.le_succ n)
  third _ _ h := h
  last _ _ h := h.mono (Nat.le_succ (n + 1))

omit hi

/-- Whatever the steps of a run do, what is at hand when they end can be written and read back. -/
theorem playCues_leaves (he : ∀ start t, ReadsBack (p.timing.elapsed start t)) (tourId : String)
    {k : Nat} (steps : List Step) (hk : ∀ i < k + steps.length, ReadsBack (.int (i : Nat))) :
    Leaves (p.Inventory n) (p.Inventory (n + 2 * steps.length))
      (p.playCues tourId k (steps.map Step.cue)) := by
  induction steps generalizing k n with
  | nil => exact .of_still (.pure ())
  | cons s steps ih =>
    rw [List.length_cons] at hk
    have hrest := ih (n := n + 2) (k := k + 1) fun i hi => hk i (by omega)
    have hn : n + 2 * (s :: steps).length = n + 2 + 2 * steps.length := by
      rw [List.length_cons]
      omega
    rw [hn, List.map_cons, Player.playCues]
    refine .bind (passes (hk k (by omega)) he tourId s).recordCue (fun goesOn => ?_)
      fun _ _ h => h.mono (by omega)
    split_ifs
    · exact hrest
    · exact (Leaves.of_still (.pure ())).mono fun _ _ h => h.mono (by omega)

end

end Player

end Run

end Walkthrough
