import Walkthrough.Proofs.Run.Inventory
import Walkthrough.Proofs.Run.Verdict
/-!
The transcript of a run. A tour has a script: what each of its steps has to say, in order. The steps
of a run say their parts of it one after the other, and the one that ends the run a beginning of its
part.
-/

namespace Walkthrough

/-- What a step has to say: its narration, if it is not empty, and then its message if it has one.
-/
def Step.spoken (index : Nat) (s : Step) : List Spoken :=
  ((s.extras.narration.filter (· ≠ "")).map fun t =>
    (⟨index, .str t, SpokenBy.extras.word⟩ : Spoken)).toList ++
  match s.action with
  | .narration message => [⟨index, .str message, SpokenBy.narration.word⟩]
  | _ => []

/-- What steps have to say, from a place in the tour on. -/
def scriptFrom : Nat → List Step → List Spoken
  | _, [] => []
  | index, s :: steps => s.spoken index ++ scriptFrom (index + 1) steps

/-- What all steps of a tour have to say. -/
def Tour.script (t : Tour) : List Spoken := scriptFrom 0 t.steps

theorem Step.step_of_mem_spoken {index : Nat} {s : Step} {e : Spoken} (h : e ∈ s.spoken index) :
    e.step = index := by
  unfold Step.spoken at h
  rcases List.mem_append.mp h with h | h
  · obtain ⟨_, -, rfl⟩ := Option.map_eq_some_iff.mp (Option.mem_toList.mp h)
    rfl
  · split at h
    · rw [List.mem_singleton.mp h]
    · cases h

theorem mem_scriptFrom {index : Nat} {steps : List Step} {e : Spoken} :
    e ∈ scriptFrom index steps ↔
      ∃ (i : Nat) (s : Step), steps[i]? = some s ∧ e ∈ s.spoken (index + i) := by
  induction steps generalizing index with
  | nil => simp [scriptFrom]
  | cons s steps ih =>
    rw [scriptFrom, List.mem_append, ih]
    constructor
    · rintro (he | ⟨i, s', hs, he⟩)
      · exact ⟨0, s, rfl, he⟩
      · exact ⟨i + 1, s', hs, by rwa [Nat.add_right_comm] at he⟩
    · rintro ⟨_ | i, s', hs, he⟩
      · cases hs
        exact .inl he
      · exact .inr ⟨i, s', hs, by rwa [Nat.add_right_comm]⟩

/-- The script of steps is what the first ones say, then one of them, then the others. -/
theorem scriptFrom_append (index : Nat) (before rest : List Step) (s : Step) :
    scriptFrom index (before ++ s :: rest) = scriptFrom index before ++
      (s.spoken (index + before.length) ++ scriptFrom (index + before.length + 1) rest) := by
  induction before generalizing index with
  | nil => rfl
  | cons b before ih =>
    have hplace : index + 1 + before.length = index + (before.length + 1) := by omega
    rw [List.cons_append, scriptFrom, scriptFrom, ih, List.append_assoc, List.length_cons, hplace]

namespace Run

variable {ε ι σ α β : Type}

/-- An action adds entries to the transcript: some that come first among given ones, and all of them
if the action comes to its end. -/
def Says (es : List Spoken) (a : Play ε σ α) : Prop :=
  ∀ st : State σ, ∃ said, (a st).2.result.transcript = st.result.transcript ++ said ∧
    said <+: es ∧ ∀ x, (a st).1 = .ok x → said = es

/-- An action leaves the transcript as it was. -/
def Mute (a : Play ε σ α) : Prop :=
  ∀ st : State σ, (a st).2.result.transcript = st.result.transcript

namespace Mute

variable {a : Play ε σ α} {f : α → Play ε σ β}

theorem of_still (h : Still a) : Mute a := fun st => by rw [(h st).result]

theorem bind (ha : Mute a) (hf : ∀ x, Mute (f x)) : Mute (a >>= f) := fun st =>
  Attempt.bind_keeps (I := fun s : State σ => s.result.transcript = st.result.transcript)
    (fun s h => (ha s).trans h) (fun x s h => (hf x s).trans h) st rfl

theorem onFault {a : Play Stop σ α} {handle : Fault → Play Stop σ α} (ha : Mute a)
    (hh : ∀ g, Mute (handle g)) : Mute (onFault a handle) := by
  intro st
  obtain h | ⟨g, h⟩ := snd_onFault a handle st
  · rw [h]
    exact ha st
  · rw [h]
    exact (hh g _).trans (ha st)

theorem act {cause : Fault → ε} (w : Act σ α) : Mute (onScene cause w : Play ε σ α) :=
  fun _ => rfl

theorem update {g : Result → Result} (h : ∀ r, (g r).transcript = r.transcript) :
    Mute (Run.update g : Play ε σ Unit) := fun _ => h _

variable {p : Player ι σ} {index : Nat}

theorem shoot (name : Json) (fullPage : Option Json) : Mute (p.shoot index name fullPage) := by
  cases name with
  | str n =>
    rw [Player.shoot_str]
    exact bind (of_still (.ask _)) fun image => bind (act _) fun _ =>
      bind (of_still (.note _)) fun _ => update fun _ => rfl
  | _ => exact of_still (.throw _)

theorem capture (moment : Moment) (c : Option (CaptureOf Json Json Json)) :
    Mute (p.capture index moment c) := by
  cases c with
  | none => exact of_still (.pure ())
  | some c =>
    unfold Player.capture
    dsimp only
    split_ifs
    · exact of_still (.pure ())
    · refine onFault (shoot _ _) fun g => ?_
      split_ifs
      · exact of_still (.bind (.throw _) fun _ => .bind (.log _ _) fun _ => .note _)
      · exact of_still (.bind (.log _ _) fun _ => .note _)

theorem queueMarkup (tourId label : String) (m : MarkupOf Json) :
    Mute (p.queueMarkup tourId index label m) :=
  bind (of_still .refl) fun _ => bind (act _) fun _ => bind (update fun _ => rfl) fun _ =>
    of_still (.note _)

end Mute

namespace Says

variable {es es' : List Spoken} {a : Play ε σ α} {f : α → Play ε σ β}

theorem of_mute (h : Mute a) : Says [] a := fun st =>
  ⟨[], by rw [h st, List.append_nil], List.prefix_rfl, fun _ _ => rfl⟩

/-- What is said by one action after another is said in their order, as far as they come. -/
theorem bind (ha : Says es a) (hf : ∀ x, Says es' (f x)) : Says (es ++ es') (a >>= f) := by
  intro st
  obtain ⟨said, hsaid, hpre, hall⟩ := ha st
  rcases has : a st with ⟨e | x, st'⟩
  · rw [has] at hsaid
    rw [Attempt.bind_error has]
    refine ⟨said, hsaid, hpre.trans (List.prefix_append es es'), ?_⟩
    rintro x ⟨⟩
  · rw [has] at hsaid hall
    rw [Attempt.bind_ok has]
    obtain ⟨said', hsaid', hpre', hall'⟩ := hf x st'
    have hes := hall x rfl
    refine ⟨es ++ said', ?_, (List.prefix_append_right_inj es).mpr hpre', fun y hy => ?_⟩
    · rw [hsaid', hsaid, hes, List.append_assoc]
    · rw [hall' y hy]

theorem mute_bind (ha : Mute a) (hf : ∀ x, Says es (f x)) : Says es (a >>= f) :=
  (of_mute ha).bind hf

theorem bind_mute (ha : Says es a) (hf : ∀ x, Mute (f x)) : Says es (a >>= f) :=
  List.append_nil es ▸ ha.bind fun x => of_mute (hf x)

theorem guarded {a : Play Stop σ α} (ha : Says es a) : Says es (guarded a) := by
  intro st
  obtain ⟨he, -⟩ | ⟨g, st', kind, -, -, has, he⟩ := guarded_apply a st
  · rw [he]
    exact ha st
  · obtain ⟨said, hsaid, hpre, -⟩ := ha st
    rw [has] at hsaid
    rw [he]
    refine ⟨said, hsaid, hpre, ?_⟩
    rintro x ⟨⟩

theorem speak (index : Nat) (text : Json) (source : SpokenBy) :
    Says [⟨index, text, source.word⟩] (Player.speak index text source : Play Stop σ Unit) :=
  fun _ => ⟨_, rfl, List.prefix_rfl, fun _ _ => rfl⟩

variable {p : Player ι σ} (tourId : String) (index : Nat) (s : Step)

/-- Of all actions only a narration says something. -/
theorem perform : Says (match s.action with
    | .narration message => [⟨index, .str message, SpokenBy.narration.word⟩]
    | _ => []) (p.perform tourId index s.cue) := by
  obtain ⟨a, x⟩ := s
  cases a with
  | narration message => exact (speak index _ .narration).bind_mute fun _ => .of_still (.note _)
  | goto key => exact of_mute (.of_still (.openRoute _))
  | click label anchor timeout => exact of_mute (.of_still (.interact _ _ _ _))
  | fill label anchor value envName timeout =>
    exact of_mute (.of_still (.bind (.fillValue _ _ _) fun v => .interact _ _ _ _))
  | waitForEvent label event timeout => exact of_mute (.of_still (.awaitEvent _ _ _))
  | expectVisible label anchor timeout =>
    refine of_mute (.of_still (.onFault (.ask _) fun g => ?_))
    split_ifs
    · exact .giveUp _ _ _
    · exact .throw _
  | waitMs duration => exact of_mute (.of_still (.ask _))
  | screenshot name label fullPage => exact of_mute (.shoot _ _)
  | annotate label instructions target => exact of_mute (.queueMarkup _ _ _)

theorem actSpoken : Says (s.spoken index) (p.actSpoken tourId index s.cue) := by
  have hact : Says _ (p.act tourId index s.cue) :=
    mute_bind (.capture .before _) fun _ =>
      (perform tourId index s).bind_mute fun _ => .capture .after _
  have htext : s.cue.extras.narration = s.extras.narration.map .str := rfl
  unfold Player.actSpoken Step.spoken
  rw [htext]
  cases hn : s.extras.narration with
  | none => exact hact
  | some t =>
    by_cases ht : t = ""
    · subst ht
      exact hact
    · have htruthy : (Json.str t).isTruthy = true := by simpa [Json.isTruthy] using ht
      have hne : decide (t ≠ "") = true := by simpa using ht
      simp only [Option.map_some, Option.filter_some, htruthy, hne, if_true]
      exact (speak index (.str t) .extras).bind fun _ => hact

/-- A step says what it has to say. -/
theorem playCue : Says (s.spoken index) (p.playCue tourId index s.cue) := by
  have hdelayed : Says (s.spoken index) (p.actDelayed tourId index s.cue) := by
    unfold Player.actDelayed
    cases s.cue.extras.preDelay.filter (·.isTruthy) with
    | none => exact actSpoken tourId index s
    | some t =>
      exact mute_bind (.of_still (.note _)) fun _ => mute_bind (.of_still (.ask _)) fun _ =>
        actSpoken tourId index s
  rw [Player.playCue_eq]
  refine mute_bind (.of_still (.ask _)) fun url => mute_bind (.of_still (.note _)) fun _ =>
    mute_bind (.of_still (.log _ _)) fun _ => (guarded hdelayed).bind_mute fun _ => ?_
  cases s.cue.extras.markup with
  | none => exact .of_still (.pure ())
  | some m => exact .queueMarkup _ _ _

end Says

theorem conclude_mute (p : Player ι σ) (index : Nat) (c : Cue) (start : ι) (r : Except Stop Unit) :
    Mute (p.conclude index c start r) := fun st =>
  (Leaves.conclude (Q := fun _ r => r.transcript = st.result.transcript) (fun _ _ _ h => h)
    (fun _ _ _ h => h) r st).2 rfl

/-- A step that was played has said a beginning of what it has to say, and all of it if it passed.
-/
theorem Played.said {p : Player ι σ} (hc : p.page.TellsTime) {tourId : String} {k : Nat} {s : Step}
    {st st' : State σ} {r : Except Stop Unit} (h : Played p tourId k s.cue st r st') :
    ∃ said, st'.result.transcript = st.result.transcript ++ said ∧ said <+: s.spoken k ∧
      (r = .ok () → said = s.spoken k) := by
  obtain ⟨said, hsaid, hpre, hall⟩ := Says.playCue tourId k s (p.clocked st)
  refine ⟨said, ?_, hpre, fun hr => hall () (h.play.trans hr)⟩
  obtain ⟨start, rfl⟩ := h.concluded hc
  exact (conclude_mute p k s.cue start _ _).trans hsaid

/-- The script of steps, cut at a failure if there is one: nothing that comes after the failing step
has been said, and of that step a beginning. -/
structure Cut (k : Nat) (steps : List Step) (said : List Spoken) (failure : Option Failure) :
    Prop where
  whole : failure = none → said = scriptFrom k steps
  cut : ∀ f ∈ failure, ∃ before s rest part, steps = before ++ s :: rest ∧
    f.step = k + before.length ∧ part <+: s.spoken f.step ∧ said = scriptFrom k before ++ part

namespace Cut

variable {k : Nat} {steps : List Step} {said : List Spoken} {failure : Option Failure}

theorem cons (h : Cut (k + 1) steps said failure) (s : Step) :
    Cut k (s :: steps) (s.spoken k ++ said) failure where
  whole hn := by rw [scriptFrom, h.whole hn]
  cut f hf := by
    obtain ⟨before, s', rest, part, rfl, hstep, hpart, rfl⟩ := h.cut f hf
    refine ⟨s :: before, s', rest, part, rfl, ?_, hpart, ?_⟩
    · rw [hstep, List.length_cons]
      omega
    · rw [scriptFrom, List.append_assoc]

theorem isPrefix (h : Cut k steps said failure) : said <+: scriptFrom k steps := by
  cases failure with
  | none => rw [h.whole rfl]
  | some f =>
    obtain ⟨before, s, rest, part, rfl, hstep, hpart, rfl⟩ := h.cut f rfl
    rw [scriptFrom_append, List.prefix_append_right_inj, ← hstep]
    exact hpart.trans (List.prefix_append _ _)

/-- What a step before the failing one has to say has been said. -/
theorem mem (h : Cut k steps said failure) {i : Nat} {s : Step} (hs : steps[i]? = some s)
    (hi : ∀ f ∈ failure, k + i < f.step) : ∀ e ∈ s.spoken (k + i), e ∈ said := by
  intro e he
  cases failure with
  | none =>
    rw [h.whole rfl]
    exact mem_scriptFrom.mpr ⟨i, s, hs, he⟩
  | some f =>
    obtain ⟨before, s', rest, part, rfl, hstep, -, rfl⟩ := h.cut f rfl
    have hlt : i < before.length := by
      have := hi f rfl
      omega
    rw [List.getElem?_append_left hlt] at hs
    exact List.mem_append_left _ (mem_scriptFrom.mpr ⟨i, s, hs, he⟩)

theorem le (h : Cut k steps said failure) {f : Failure} (hf : f ∈ failure) :
    ∀ e ∈ said, e.step ≤ f.step := by
  obtain ⟨before, s, rest, part, rfl, hstep, hpart, rfl⟩ := h.cut f hf
  intro e he
  rcases List.mem_append.mp he with he | he
  · obtain ⟨i, s', hs, he⟩ := mem_scriptFrom.mp he
    obtain ⟨hlt, -⟩ := List.getElem?_eq_some_iff.mp hs
    rw [Step.step_of_mem_spoken he]
    omega
  · rw [Step.step_of_mem_spoken (hpart.subset he)]

end Cut

/-- The steps of a run say their script, cut at the failure. -/
theorem Course.cut {p : Player ι σ} (hc : p.page.TellsTime) {tourId : String} {k : Nat}
    {steps : List Step} {st st' : State σ} {x : Except Fault Unit}
    (h : Course p tourId k (steps.map Step.cue) st x st') (hf : st.result.failure = none) :
    ∃ said, st'.result.transcript = st.result.transcript ++ said ∧
      Cut k steps said st'.result.failure := by
  generalize hcues : steps.map Step.cue = cues at h
  induction h generalizing steps with
  | done k st =>
    rw [List.map_eq_nil_iff.mp hcues, hf]
    exact ⟨[], (List.append_nil _).symm, fun _ => rfl, by simp⟩
  | @passed k c cs st st' st'' x hp _ ih =>
    obtain ⟨s, steps, rfl, rfl, rfl⟩ := List.map_eq_cons_iff.mp hcues
    obtain ⟨said, hsaid, -, hall⟩ := hp.said hc
    obtain ⟨said', hsaid', hcut⟩ := ih (by rw [hp.failure, hf]; rfl) rfl
    refine ⟨s.spoken k ++ said', ?_, hcut.cons s⟩
    rw [hsaid', hsaid, hall rfl, List.append_assoc]
  | @stopped k c st st' e cs hp =>
    obtain ⟨s, steps, rfl, rfl, rfl⟩ := List.map_eq_cons_iff.mp hcues
    obtain ⟨said, hsaid, hpre, -⟩ := hp.said hc
    refine ⟨said, hsaid, fun hn => ?_, fun f hfail => ?_⟩
    · rw [hp.failure, hf] at hn
      cases e <;> cases hn
    · have hstep : f.step = k := by
        rw [hp.failure, hf] at hfail
        cases e <;> cases hfail <;> rfl
      exact ⟨[], s, steps, said, rfl, hstep, by rw [hstep]; exact hpre, rfl⟩

/-- A record that says that its step passed is of a step before the failing one. -/
theorem InSequence.before {k : Nat} {cues : List Cue} {records : List Record}
    {failure : Option Failure} (h : InSequence k cues records failure) {x : Record}
    (hx : x ∈ records) (hp : x.passed = true) :
    ∃ i c, x.step = ((k + i : Nat)) ∧ cues[i]? = some c ∧ ∀ f ∈ failure, k + i < f.step := by
  obtain ⟨i, hi⟩ := List.mem_iff_getElem?.mp hx
  obtain ⟨hlt, hget⟩ := List.getElem?_eq_some_iff.mp hi
  have hlength : records.length ≤ cues.length := by
    have hkinds := congrArg List.length h.kinds
    rw [List.length_map, List.length_map, List.length_take] at hkinds
    omega
  have hstep : x.step = k + i := by
    have hsteps := congrArg (·[i]?) h.steps
    simp only [List.getElem?_map, hi, List.getElem?_range' hlt] at hsteps
    simpa using hsteps
  refine ⟨i, cues[i], hstep, List.getElem?_eq_getElem _, fun f hf => ?_⟩
  have hplace := h.place f hf
  -- the last record is that of the failing step, which did not pass
  have hne : i ≠ records.length - 1 := by
    rintro rfl
    have hlast := h.last
    rw [List.getLast?_eq_getElem?, hi, Option.any_some, hp, Option.mem_def.mp hf] at hlast
    cases hlast
  omega

namespace Player

open Text.Utf8 (encode)

variable {p : Player ι σ} {t : Tour} {sc : Scene σ}

/-- What has come of a run when it ends, whether or not it ends well. -/
def outcome (p : Player ι σ) (t : Tour) (sc : Scene σ) : Result :=
  (p.play t.id t.cues (.fresh t.id sc)).2.result

theorem Writes.outcome {r : Result} (h : p.Writes t sc r) : r = p.outcome t sc := by
  obtain ⟨st, ho, rfl, -⟩ := h
  exact (play_frame ho (Prod.eta _).symm).1.symm

/-- Nothing comes of a run whose steps do not begin, and it gives no result; otherwise its steps
take their course. -/
theorem outcome_cases (t : Tour) (sc : Scene σ) (hc : p.page.TellsTime) :
    ((¬∃ st, p.Begins t sc st) ∧ p.outcome t sc = { tourId := t.id } ∧
      ∀ r, (p.run t sc).1 ≠ .ok r) ∨
    ∃ st x s, p.Begins t sc st ∧ Course p t.id 0 t.cues st x s ∧ p.outcome t sc = s.result := by
  have hframe := (opening_frame (p := p) (.fresh t.id sc)).2
  rcases ho : p.opening (.fresh t.id sc) with ⟨e | ⟨⟩, st₀⟩
  · rw [ho] at hframe
    have hplay : p.play t.id t.cues (.fresh t.id sc) = (.error e, st₀) := by
      rw [play_eq, Attempt.bind_error ho]
    refine .inl ⟨?_, ?_, fun r hr => ?_⟩
    · rintro ⟨st, st₁, ho', -⟩
      rw [ho] at ho'
      cases ho'
    · rw [outcome, hplay]
      exact hframe
    · have hok := (p.run_eq_ok hr).1
      rw [hplay] at hok
      cases hok
  · have hr := (play_frame ho (Prod.eta (p.onPage t.id t.cues (noteStart t.id t.cues st₀))).symm).1
    obtain ⟨f, hf, hx, hres⟩ | ⟨st, hb, he⟩ := onPage_cases ho
    · refine .inl ⟨?_, hr.trans hres, fun r hr => ?_⟩
      · rintro ⟨st, hb⟩
        rw [hb.state.1] at hf
        cases hf
      · have hok := (play_ending ho (Prod.eta _).symm).2.2 (p.run_eq_ok hr).1
        rw [hx] at hok
        cases hok
    · rw [he] at hr
      exact .inr ⟨st, _, _, hb, playCues_course hc t.id 0 t.cues st, hr⟩

/-- A run that writes its result has written its transcript. -/
theorem Writes.transcript {r : Result} (h : p.Writes t sc r) :
    (p.run t sc).2.files.read (p.config.directory / "transcript.json") =
      .ok (encode ((Spoken.listJson r.transcript).pretty ++ "\n").toList) := by
  obtain ⟨st, ho, rfl, hf⟩ := h
  have hplay := (play_ending ho (Prod.eta (p.onPage t.id t.cues (noteStart t.id t.cues st))).symm).1
  change (p.play t.id t.cues (.fresh t.id sc)).2.scene.files.read _ = _
  rw [hplay]
  generalize (p.onPage t.id t.cues (noteStart t.id t.cues st)).2 = s at hf
  refine writeNotes_read (by decide +kernel) (by decide) (by decide) _ ?_
  have hlast (name : String) (hn : name ∈ ownNames) :
      (p.config.directory / name).parts.getLast? = some name :=
    Path.getLast?_join_name _ _ (ofString_ownName name hn)
  have hkeep (name : String) (hn : name ∈ ownNames) (hne : "transcript.json" ≠ name)
      (hdots : name ≠ "..") (text : String) {fs fs' : Store} {bytes : Text.Utf8.Bytes}
      (hw : Filing.writeText (p.config.directory / name) text fs = (.ok (), fs'))
      (hr : fs.read (p.config.directory / "transcript.json") = .ok bytes) :
      fs'.read (p.config.directory / "transcript.json") = .ok bytes := by
    have hread := Filing.writeText_read_of_ne (hlast name hn) hdots
      (hlast "transcript.json" (by decide)) (by decide) hne text hr
    rwa [hw] at hread
  rw [finish_apply] at hf ⊢
  rcases hr : s.result.write p.config.date p.config.directory s.scene.files with ⟨e | ⟨⟩, fs⟩
  · rw [hr] at hf
    cases hf
  · -- the transcript's file is written first, and the others have other names
    obtain ⟨⟨⟩, _, hspoken, hr⟩ := Attempt.bind_eq_ok.mp hr
    obtain ⟨⟨⟩, _, hjson, hscript⟩ := Attempt.bind_eq_ok.mp hspoken
    obtain ⟨⟨⟩, _, hshots, hresult⟩ := Attempt.bind_eq_ok.mp hr
    exact hkeep "result.json" (by decide) (by decide) (by decide) _ hresult
      (hkeep "screens.json" (by decide) (by decide) (by decide) _ hshots
        (hkeep "transcript.md" (by decide) (by decide) (by decide) _ hscript
          (Filing.writeText_read hjson)))

/-- The transcript of a run is its tour's script cut at the failure: it begins as the script does,
has all that a step says that passed, and nothing that is said behind the failing step. It is the
whole script when no step failed, unless the steps did not begin; but then the run gives no
result. A page that refuses the script that it is given first leaves a transcript without entries
and a verdict that is a pass. -/
theorem transcript_cut (t : Tour) (sc : Scene σ) (hc : p.page.TellsTime) :
    (p.outcome t sc).transcript <+: t.script ∧
    (∀ x ∈ (p.outcome t sc).records, x.passed = true →
      ∃ s, t.steps[x.step]? = some s ∧ ∀ e ∈ s.spoken x.step, e ∈ (p.outcome t sc).transcript) ∧
    (∀ f ∈ (p.outcome t sc).failure, ∀ e ∈ (p.outcome t sc).transcript, e.step ≤ f.step) ∧
    ((p.outcome t sc).passed = true →
      ((p.outcome t sc).transcript = t.script ↔ t.script = [] ∨ ∃ st, p.Begins t sc st)) ∧
    (∀ r, (p.run t sc).1 = .ok r → r = p.outcome t sc ∧ ∃ st, p.Begins t sc st) ∧
    (∀ f, (p.page.answer .addInitScript sc.page).1 = .error f →
      (p.outcome t sc).transcript = [] ∧ (p.outcome t sc).verdict = "pass" ∧
        ∀ r, (p.run t sc).1 ≠ .ok r) ∧
    ∀ r, p.Writes t sc r → r = p.outcome t sc ∧
      (p.run t sc).2.files.read (p.config.directory / "transcript.json") =
        .ok (encode ((Spoken.listJson r.transcript).pretty ++ "\n").toList) := by
  have hwrites (r : Result) (h : p.Writes t sc r) := And.intro h.outcome h.transcript
  obtain ⟨hnone, hout, hrun⟩ | ⟨st, x, s, hb, hcourse, hout⟩ := outcome_cases t sc hc
  · rw [hout]
    refine ⟨List.nil_prefix, by simp, by simp, fun _ => ?_, fun r hr => absurd hr (hrun r),
      fun _ _ => ⟨rfl, rfl, hrun⟩, fun r hr => ?_⟩
    · exact ⟨fun h => .inl h.symm, fun h => h.elim Eq.symm fun hb => absurd hb hnone⟩
    · rw [← hout]
      exact hwrites r hr
  · have hfresh : st.result = { tourId := t.id } := hb.state.2.2
    obtain ⟨said, hsaid, hcut⟩ := hcourse.cut hc (by rw [hfresh])
    obtain ⟨records, -, hrecords, hseq, -⟩ := hcourse.recorded (by rw [hfresh])
    rw [hfresh, List.nil_append] at hsaid hrecords
    have htranscript : (p.outcome t sc).transcript = said := by rw [hout, hsaid]
    rw [htranscript]
    rw [hout] at hwrites ⊢
    refine ⟨hcut.isPrefix, fun r hr hp => ?_, fun f hf => hcut.le hf, fun hp => ?_,
      fun r hr => ⟨?_, st, hb⟩, fun f hf => ?_, hwrites⟩
    · rw [hrecords] at hr
      obtain ⟨i, c, hstep, hi, hbefore⟩ := hseq.before hr hp
      rw [Nat.zero_add] at hstep
      obtain ⟨s', hs, -⟩ : ∃ s', t.steps[i]? = some s' ∧ s'.cue = c := by
        rw [Tour.cues, List.getElem?_map, Option.map_eq_some_iff] at hi
        exact hi
      have hmem := hcut.mem hs hbefore
      rw [Nat.zero_add] at hmem
      rw [hstep]
      exact ⟨s', hs, hmem⟩
    · have hf : s.result.failure = none := by
        rw [Result.passed, Option.isNone_iff_eq_none] at hp
        exact hp
      rw [hcut.whole hf]
      exact ⟨fun _ => .inr ⟨st, hb⟩, fun _ => rfl⟩
    · rw [(p.run_eq_ok hr).2, ← hout]
      rfl
    · rw [hb.state.1] at hf
      cases hf

theorem transcript_cut_refused :
    let refuse (c : PageCall) : Option Fault :=
      if c = .addInitScript then some (.page .browser "page closed") else none
    let p : Player Int (List Called) := ⟨.refusing refuse 0, .exact,
      { baseUrl := "http://app.test", routes := [], directory := "run", date := "2026-01-01" }⟩
    let t : Tour := ⟨"demo", none, [⟨.waitMs 5, {}⟩, ⟨.narration "Hi", {}⟩]⟩
    let sc : Scene (List Called) := { page := [] }
    p.page.TellsTime ∧ (p.outcome t sc).transcript = [] ∧ (p.outcome t sc).verdict = "pass" ∧
      t.script = [⟨1, .str "Hi", "narration"⟩] ∧
      (p.run t sc).2.files.read (p.config.directory / "transcript.json") =
        .ok (encode "[]\n".toList) := by
  intro refuse p t sc
  have hc : p.page.TellsTime := Page.refusing_tellsTime refuse 0
  have ho : (p.opening (.fresh t.id sc)).1 = .ok () := ok_of_toOption (by decide +kernel)
  have hf : (p.finish (p.onPage t.id t.cues
      (noteStart t.id t.cues (p.opening (.fresh t.id sc)).2)).2).1 = .ok () :=
    ok_of_toOption (by decide +kernel)
  have hw : p.Writes t sc _ := ⟨_, Prod.ext ho rfl, rfl, hf⟩
  obtain ⟨-, -, -, -, -, hrefused, hwrites⟩ := transcript_cut t sc hc
  have ha : (p.page.answer .addInitScript sc.page).1 = .error (.page .browser "page closed") := rfl
  obtain ⟨hnil, hpass, -⟩ := hrefused _ ha
  obtain ⟨hr, hread⟩ := hwrites _ hw
  refine ⟨hc, hnil, hpass, rfl, ?_⟩
  rw [hread, hr, hnil]
  rfl

end Player

end Run

end Walkthrough
