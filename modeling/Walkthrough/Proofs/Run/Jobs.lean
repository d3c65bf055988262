import Walkthrough.Proofs.Run.Shots
import Walkthrough.Proofs.Run.Transcript
/-!
The markup jobs of a run. A step requests up to two of them: its action one, its markup the other.
A job is for the last screenshot that fits and was there when the job was queued; which ones these
were can be told when the run has ended, from the steps at which the screenshots were made.
-/

namespace Walkthrough

open Run

/-- A request of a step for a job. -/
structure JobRequest where
  step : Nat
  label : String
  markup : Markup
  /-- The screenshots of the step itself are made before the job is queued. -/
  afterOwn : Bool

namespace JobRequest

variable {q : JobRequest} {shots later : List Shot}

/-- A screenshot is made before the job is queued. -/
def follows (q : JobRequest) (x : Shot) : Bool :=
  x.step < q.step || (q.afterOwn && x.step == q.step)

/-- The screenshots that a job can be for: those made before it, of its target's name if it has a
target. -/
def candidates (q : JobRequest) (shots : List Shot) : List Shot :=
  shots.filter fun x => q.follows x && q.markup.target.all (x.name == ·)

/-- The path of the screenshot that a job is for, the last of those that it can be for; its target,
if it has one, stands in place of a screenshot that is not there. -/
def path (q : JobRequest) (shots : List Shot) : String :=
  ((q.candidates shots).getLast?.map (·.path)).getD (q.markup.target.getD "")

/-- The job that is requested, in a run that makes some screenshots. -/
def job (tourId : String) (shots : List Shot) (q : JobRequest) : Job :=
  ⟨tourId, q.step, q.label, .str (q.path shots), .str q.markup.instructions⟩

theorem follows_eq_false {x : Shot} (h : (q.step : Int) < x.step) : q.follows x = false := by
  simp [follows, h.le, h.ne']

/-- Screenshots that are made after a job was queued do not change it. -/
theorem job_append (tourId : String) (h : ∀ x ∈ later, q.follows x = false) :
    q.job tourId (shots ++ later) = q.job tourId shots := by
  have hnone : q.candidates later = [] :=
    List.filter_eq_nil_iff.mpr fun x hx => by simp [h x hx]
  have hsame : q.candidates (shots ++ later) = q.candidates shots := by
    rw [candidates, List.filter_append, ← candidates, ← candidates, hnone, List.append_nil]
  rw [job, job, path, path, hsame]

/-- What a run takes for a job is the request's screenshot among those that were made before. -/
theorem markedShot_eq {r : Result} (h : ∀ x ∈ r.shots, q.follows x = true) :
    r.markedShot (q.markup.target.map .str) = .str (q.path r.shots) := by
  have hfits : q.candidates r.shots =
      r.shots.filter fun x => q.markup.target.all (x.name == ·) :=
    List.filter_congr fun x hx => by rw [h x hx, Bool.true_and]
  unfold Result.markedShot path
  rw [hfits]
  cases q.markup.target with
  | none => simp
  | some t =>
    have hnamed : Shot.named? r.shots t = (r.shots.filter (·.name == t)).getLast? := by
      rw [Shot.named?, ← List.head?_filter, List.filter_reverse, List.head?_reverse]
    simp only [Option.map_some, Json.str?, Option.bind_some, Option.all_some, hnamed]
    cases (r.shots.filter (·.name == t)).getLast? <;> rfl

/-- The screenshots of a run have paths that are neither empty nor their names, so that what stands
in place of a screenshot is not taken for one. -/
theorem path_eq_iff (h : ∀ x ∈ shots, x.path ≠ "" ∧ x.path ≠ x.name) :
    q.path shots = q.markup.target.getD "" ↔ q.candidates shots = [] := by
  unfold path
  rcases hlast : (q.candidates shots).getLast? with _ | x
  · simpa using hlast
  · have hx := List.mem_of_getLast? hlast
    obtain ⟨hmem, hfits⟩ := List.mem_filter.mp hx
    obtain ⟨hempty, hname⟩ := h x hmem
    refine iff_of_false (fun hpath => ?_) (List.ne_nil_of_mem hx)
    rw [Option.map_some, Option.getD_some] at hpath
    cases ht : q.markup.target with
    | none =>
      rw [ht] at hpath
      exact hempty hpath
    | some t =>
      rw [ht] at hpath hfits
      have hnamed : x.name = t := by simpa using (Bool.and_eq_true_iff.mp hfits).2
      exact hname (hpath.trans hnamed.symm)

end JobRequest

namespace Step

variable {index : Nat} {s : Step} {q : JobRequest}

/-- A step makes its capture at a moment. -/
def captures (moment : Moment) (s : Step) : Bool := s.extras.capture.any (·.moment = moment)

theorem captures_eq {moment : Moment} {c : Capture} (hc : c ∈ s.extras.capture) :
    s.captures moment = decide (c.moment = moment) := by
  rw [captures, Option.mem_def.mp hc, Option.any_some]

/-- What a step's action requests. Of the screenshots of its step there can only be a capture, and
it comes before the job or after it. -/
def actionRequest? (index : Nat) (s : Step) : Option JobRequest :=
  match s.action with
  | .annotate _ instructions target =>
    some ⟨index, s.cue.markupLabel index, ⟨instructions, target⟩, s.captures .before⟩
  | _ => none

/-- What a step's markup requests, when all screenshots of the step have been made. -/
def markupRequest? (index : Nat) (s : Step) : Option JobRequest :=
  s.extras.markup.map fun m => ⟨index, s.cue.markupLabel index, m, true⟩

/-- What a step requests, in the order of the jobs. -/
def requests (index : Nat) (s : Step) : List JobRequest :=
  (s.actionRequest? index).toList ++ (s.markupRequest? index).toList

/-- What steps request, from a place in the tour on. -/
def requestsFrom : Nat → List Step → List JobRequest
  | _, [] => []
  | index, s :: steps => s.requests index ++ requestsFrom (index + 1) steps

theorem actionRequest?_eq_some (h : s.actionRequest? index = some q) :
    ∃ label instructions target, s.action = .annotate label instructions target ∧
      q = ⟨index, s.cue.markupLabel index, ⟨instructions, target⟩, s.captures .before⟩ := by
  unfold actionRequest? at h
  split at h
  · next label instructions target ha =>
    exact ⟨label, instructions, target, ha, (Option.some.inj h).symm⟩
  · cases h

theorem step_of_mem_requests (h : q ∈ s.requests index) : q.step = index := by
  rcases List.mem_append.mp h with h | h
  · obtain ⟨_, _, _, -, rfl⟩ := actionRequest?_eq_some (Option.mem_toList.mp h)
    rfl
  · obtain ⟨m, -, rfl⟩ := Option.map_eq_some_iff.mp (Option.mem_toList.mp h)
    rfl

theorem length_requests_le : (s.requests index).length ≤ 2 := by
  rw [requests, List.length_append]
  exact Nat.add_le_add Option.length_toList_le Option.length_toList_le

theorem le_step_of_mem_requestsFrom {k : Nat} {steps : List Step} (h : q ∈ requestsFrom k steps) :
    k ≤ q.step := by
  induction steps generalizing k with
  | nil => cases h
  | cons s steps ih =>
    rcases List.mem_append.mp h with h | h
    · exact (step_of_mem_requests h).ge
    · exact Nat.le_of_succ_le (ih h)

/-- Steps request jobs in their order. -/
theorem pairwise_requestsFrom (k : Nat) (steps : List Step) :
    (requestsFrom k steps).Pairwise (·.step ≤ ·.step) := by
  induction steps generalizing k with
  | nil => exact .nil
  | cons s steps ih =>
    refine List.pairwise_append.mpr ⟨List.pairwise_of_forall_mem_list fun q hq q' hq' => ?_,
      ih (k + 1), fun q hq q' hq' => ?_⟩
    · rw [step_of_mem_requests hq, step_of_mem_requests hq']
    · rw [step_of_mem_requests hq]
      exact Nat.le_of_succ_le (le_step_of_mem_requestsFrom hq')

/-- A step requests no more than two jobs. -/
theorem countP_requestsFrom_le (k : Nat) (steps : List Step) (i : Nat) :
    (requestsFrom k steps).countP (·.step == i) ≤ 2 := by
  induction steps generalizing k with
  | nil => exact Nat.zero_le 2
  | cons s steps ih =>
    rw [requestsFrom, List.countP_append]
    by_cases hi : i = k
    · have hlater : (requestsFrom (k + 1) steps).countP (·.step == i) = 0 := by
        refine List.countP_eq_zero.mpr fun q hq => ?_
        have := le_step_of_mem_requestsFrom hq
        simp only [beq_iff_eq]
        omega
      rw [hlater, Nat.add_zero]
      exact List.countP_le_length.trans length_requests_le
    · have hown : (s.requests k).countP (·.step == i) = 0 := by
        refine List.countP_eq_zero.mpr fun q hq => ?_
        rw [step_of_mem_requests hq, beq_iff_eq]
        exact Ne.symm hi
      rw [hown, Nat.zero_add]
      exact ih (k + 1)

/-- The requests of the first steps, and of the next one that of its action, are in order. -/
theorem requestsFrom_take_prefix (k n : Nat) (steps : List Step) (asked : Option JobRequest)
    (h : ∀ q ∈ asked, (steps[n]?).bind (actionRequest? (k + n)) = some q) :
    requestsFrom k (steps.take n) ++ asked.toList <+: requestsFrom k steps := by
  induction steps generalizing k n with
  | nil =>
    cases asked with
    | none => simp [requestsFrom]
    | some q => cases h q rfl
  | cons s steps ih =>
    cases n with
    | zero =>
      rw [List.take_zero, requestsFrom, List.nil_append, requestsFrom, requests, List.append_assoc]
      cases asked with
      | none => exact List.nil_prefix
      | some q =>
        have hq : s.actionRequest? k = some q := h q rfl
        rw [hq]
        exact List.prefix_append _ _
    | succ n =>
      rw [List.take_succ_cons, requestsFrom, requestsFrom, List.append_assoc,
        List.prefix_append_right_inj]
      refine ih (k + 1) n fun q hq => ?_
      rw [Nat.add_right_comm, Nat.add_assoc]
      exact h q hq

end Step

namespace Run

variable {ε ι σ α β : Type}

/-- An action that finds a result of one kind leaves one of a second kind if it comes to its end,
and one of a third if it does not. -/
def Brings (Q Q' E : Result → Prop) (a : Play ε σ α) : Prop :=
  ∀ st : State σ, Q st.result →
    (∀ x, (a st).1 = .ok x → Q' (a st).2.result) ∧ ∀ e, (a st).1 = .error e → E (a st).2.result

namespace Brings

variable {Q Q' Q'' E : Result → Prop} {a : Play ε σ α} {f : α → Play ε σ β}

theorem of_leaves (h : Leaves (fun _ => Q) (fun _ => Q') a) (he : ∀ r, Q' r → E r) :
    Brings Q Q' E a := fun st hq =>
  ⟨fun _ _ => (h st).2 hq, fun _ _ => he _ ((h st).2 hq)⟩

theorem bind (ha : Brings Q Q' E a) (hf : ∀ x, Brings Q' Q'' E (f x)) :
    Brings Q Q'' E (a >>= f) := by
  intro st hq
  obtain ⟨hok, herr⟩ := ha st hq
  rcases has : a st with ⟨e | x, st'⟩
  · rw [has] at herr
    rw [Attempt.bind_error has]
    exact ⟨fun _ => nofun, fun _ _ => herr e rfl⟩
  · rw [has] at hok
    rw [Attempt.bind_ok has]
    exact hf x st' (hok x rfl)

theorem still_bind (ha : Still a) (he : ∀ r, Q r → E r) (hf : ∀ x, Brings Q Q' E (f x)) :
    Brings Q Q' E (a >>= f) := (of_leaves (.of_still ha) he).bind hf

theorem guarded {a : Play Stop σ α} (ha : Brings Q Q' E a) : Brings Q Q' E (guarded a) := by
  intro st hq
  obtain ⟨he, -⟩ | ⟨g, st', kind, -, -, has, he⟩ := guarded_apply a st
  · rw [he]
    exact ha st hq
  · obtain ⟨-, herr⟩ := ha st hq
    rw [has] at herr
    rw [he]
    exact ⟨fun _ => nofun, fun _ _ => herr _ rfl⟩

end Brings

/-- What parts of a step have added to a result: screenshots of the step, and jobs for requests. -/
structure Adds (tourId : String) (k : Nat) (base : Result) (asked : List JobRequest) (r : Result) :
    Prop where
  shots : ∃ own, r.shots = base.shots ++ own ∧ ∀ x ∈ own, x.step = k
  jobs : r.jobs = base.jobs ++ asked.map (JobRequest.job tourId r.shots)

/-- The same of a step that does not come to its end: its action's job may have been queued. -/
def AddsPart (tourId : String) (k : Nat) (base : Result) (s : Step) (r : Result) : Prop :=
  ∃ asked : Option JobRequest, (∀ q ∈ asked, s.actionRequest? k = some q) ∧
    Adds tourId k base asked.toList r

namespace Adds

variable {tourId : String} {k : Nat} {base r r' : Result} {asked : List JobRequest} {s : Step}

theorem of_same (hs : r.shots = base.shots) (hj : r.jobs = base.jobs) :
    Adds tourId k base [] r :=
  ⟨⟨[], by rw [hs, List.append_nil], by simp⟩, by rw [hj, List.map_nil, List.append_nil]⟩

theorem congr (h : Adds tourId k base asked r) (hs : r'.shots = r.shots) (hj : r'.jobs = r.jobs) :
    Adds tourId k base asked r' :=
  ⟨hs ▸ h.shots, by rw [hj, hs, h.jobs]⟩

theorem addsPart (h : Adds tourId k base [] r) : AddsPart tourId k base s r :=
  ⟨none, by simp, h⟩

/-- A screenshot that is made later than the jobs were queued. -/
theorem shot (h : Adds tourId k base asked r) {x : Shot} (hx : x.step = k)
    (hf : ∀ q ∈ asked, q.follows x = false) :
    Adds tourId k base asked { r with shots := r.shots ++ [x] } where
  shots := by
    obtain ⟨own, hown, hstep⟩ := h.shots
    refine ⟨own ++ [x], by rw [hown, List.append_assoc], fun y hy => ?_⟩
    rcases List.mem_append.mp hy with hy | hy
    · exact hstep y hy
    · rw [List.mem_singleton.mp hy, hx]
  jobs := by
    refine h.jobs.trans (congrArg (base.jobs ++ ·) (List.map_congr_left fun q hq => ?_))
    exact (JobRequest.job_append tourId (by simpa using hf q hq)).symm

/-- A job is queued when all screenshots that there are were made before it. -/
theorem job (h : Adds tourId k base asked r) {q : JobRequest}
    (hq : ∀ x ∈ r.shots, q.follows x = true) :
    Adds tourId k base (asked ++ [q]) { r with
      jobs := r.jobs ++ [⟨tourId, q.step, q.label, r.markedShot (q.markup.target.map .str),
        .str q.markup.instructions⟩] } where
  shots := h.shots
  jobs := by
    rw [JobRequest.markedShot_eq hq, List.map_append, ← List.append_assoc, ← h.jobs]
    rfl

/-- The screenshots of a step and those from before it were all made up to its end. -/
theorem step_le (h : Adds tourId k base asked r) (hb : ∀ x ∈ base.shots, x.step < k) :
    ∀ x ∈ r.shots, x.step ≤ k := by
  obtain ⟨own, hown, hstep⟩ := h.shots
  rw [hown]
  intro x hx
  rcases List.mem_append.mp hx with hx | hx
  · exact (hb x hx).le
  · exact (hstep x hx).le

end Adds

section

variable {p : Player ι σ} {tourId : String} {k : Nat} {s : Step}

theorem Leaves.shoot {Q Q' : Result → Prop} {name : String} {fullPage : Option Json}
    (hw : ∀ r, Q r → Q' r)
    (hs : ∀ r (x : Shot), Q r → x.step = k → Q' { r with shots := r.shots ++ [x] }) :
    Leaves (fun _ => Q) (fun _ => Q') (p.shoot k (.str name) fullPage) := by
  rw [Player.shoot_str]
  exact .still_bind (.ask _) (fun image => .bind (.file fun _ _ h => h) (fun _ =>
    .still_bind (.note _) (fun _ => .update fun _ r h => hs r _ h rfl) fun _ => hw)
    fun _ => hw) fun _ => hw

namespace Brings

variable {Q Q₁ Q' E : Result → Prop}

/-- A job is added, unless the queue's file cannot be written. -/
theorem queueMarkup {q : JobRequest} (hk : q.step = k) (he : ∀ r, Q r → E r)
    (hjob : ∀ r, Q r → Q' { r with jobs := r.jobs ++ [⟨tourId, q.step, q.label,
      r.markedShot (q.markup.target.map .str), .str q.markup.instructions⟩] }) :
    Brings Q Q' E (p.queueMarkup tourId k q.label
      ⟨.str q.markup.instructions, q.markup.target.map .str⟩) := by
  subst hk
  intro st hq
  have hget : (get : Play Stop σ (State σ)) st = (.ok st, st) := rfl
  unfold Player.queueMarkup
  rw [Attempt.bind_ok hget]
  -- the job is made of the result as it is before the file is written, and writing keeps that
  have hfile (w : Filing Unit) : Brings (· = st.result) (· = st.result) E
      (onScene .raised (Act.file w) : Play Stop σ Unit) :=
    of_leaves (.file fun _ _ h => h) fun r h => h ▸ he _ hq
  refine (hfile _).bind (fun _ st' h => ⟨fun _ _ => ?_, fun e he => by cases he⟩) st rfl
  change Q' { st'.result with jobs := st'.result.jobs ++ [_] }
  rw [h]
  exact hjob _ hq

/-- A step brings what it brings between its captures, and its markup then. -/
theorem playCue (he : ∀ r, Q r → E r)
    (hspeak : ∀ text, Leaves (fun _ => Q) (fun _ => Q)
      (Player.speak k (.str text) .extras : Play Stop σ Unit))
    (hact : Brings Q Q₁ E (p.act tourId k s.cue))
    (hnone : s.extras.markup = none → ∀ r, Q₁ r → Q' r)
    (hmarkup : ∀ m ∈ s.extras.markup, Brings Q₁ Q' E (p.queueMarkup tourId k
      (s.cue.markupLabel k) ⟨.str m.instructions, m.target.map .str⟩)) :
    Brings Q Q' E (p.playCue tourId k s.cue) := by
  have hspoken : Brings Q Q₁ E (p.actSpoken tourId k s.cue) := by
    have htext : s.cue.extras.narration = s.extras.narration.map .str := rfl
    unfold Player.actSpoken
    rw [htext]
    cases s.extras.narration with
    | none => exact hact
    | some t =>
      rw [Option.map_some, Option.filter_some]
      split_ifs
      · exact (of_leaves (hspeak t) he).bind fun _ => hact
      · exact hact
  have hdelayed : Brings Q Q₁ E (p.actDelayed tourId k s.cue) := by
    unfold Player.actDelayed
    cases s.cue.extras.preDelay.filter (·.isTruthy) with
    | none => exact hspoken
    | some t => exact still_bind (.note _) he fun _ => still_bind (.ask _) he fun _ => hspoken
  have hcue : s.cue.extras.markup =
    s.extras.markup.map fun m => ⟨.str m.instructions, m.target.map .str⟩ := rfl
  rw [Player.playCue_eq, hcue]
  refine still_bind (.ask _) he fun url => still_bind (.note _) he fun _ =>
    still_bind (.log _ _) he fun _ => (guarded hdelayed).bind fun _ => ?_
  cases hm : s.extras.markup with
  | none => exact fun st hq => ⟨fun _ _ => hnone hm _ hq, fun e he => by cases he⟩
  | some m => exact hmarkup m hm

end Brings

/-- All screenshots that are there when a step's action begins come before its job. -/
structure Poised (tourId : String) (k : Nat) (base : Result) (s : Step) (r : Result) : Prop where
  adds : Adds tourId k base [] r
  follows : ∀ q ∈ s.actionRequest? k, ∀ x ∈ r.shots, q.follows x = true

variable {base : Result}

theorem adds_perform : Brings (Poised tourId k base s)
    (Adds tourId k base (s.actionRequest? k).toList) (AddsPart tourId k base s)
    (p.perform tourId k s.cue) := by
  cases hq : s.actionRequest? k with
  | none =>
    refine .of_leaves (.perform (fun _ _ h => h.adds) (fun _ => .update fun _ r h => ?_)
      (fun name _ fullPage _ => .shoot (fun _ h => h.adds) fun r x h hx => ?_)
      fun label instructions target ha => ?_) fun r => Adds.addsPart
    · exact h.adds.congr rfl rfl
    · exact h.adds.shot hx (by simp)
    · rw [Step.actionRequest?, ha] at hq
      cases hq
  | some q =>
    obtain ⟨label, instructions, target, ha, hreq⟩ := Step.actionRequest?_eq_some hq
    have hperform : p.perform tourId k s.cue = p.queueMarkup tourId k q.label
        ⟨.str q.markup.instructions, q.markup.target.map .str⟩ := by
      rw [hreq]
      obtain ⟨a, x⟩ := s
      cases ha
      rfl
    rw [hperform]
    exact .queueMarkup (by rw [hreq]) (fun r h => h.adds.addsPart) fun r h =>
      h.adds.job (h.follows q hq)

/-- A capture that is made after the action comes too late for the action's job. -/
theorem adds_capture : Leaves (fun _ => Adds tourId k base (s.actionRequest? k).toList)
    (fun _ => Adds tourId k base (s.actionRequest? k).toList)
    (p.capture k .after s.cue.extras.capture) := by
  refine .capture (fun _ _ h => h) fun c hc hm => .shoot (fun _ h => h) fun r x h hx => ?_
  refine h.shot hx fun q hq => ?_
  obtain ⟨_, _, _, -, rfl⟩ := Step.actionRequest?_eq_some (Option.mem_toList.mp hq)
  simp [JobRequest.follows, hx, Step.captures_eq hc, hm]

variable (hb : ∀ x ∈ base.shots, x.step < k)

include hb

theorem Poised.start {r : Result} (h : r.shots = base.shots ∧ r.jobs = base.jobs) :
    Poised tourId k base s r := by
  refine ⟨.of_same h.1 h.2, fun q hq x hx => ?_⟩
  obtain ⟨_, _, _, -, rfl⟩ := Step.actionRequest?_eq_some hq
  rw [h.1] at hx
  simp [JobRequest.follows, hb x hx]

theorem poised_capture : Leaves (fun _ r => r.shots = base.shots ∧ r.jobs = base.jobs)
    (fun _ => Poised tourId k base s) (p.capture k .before s.cue.extras.capture) := by
  refine .capture (fun _ _ => .start hb) fun c hc hm =>
    .shoot (fun _ => .start hb) fun r x h hx => ?_
  have hr : Poised tourId k base s r := .start hb h
  refine ⟨hr.adds.shot hx (by simp), fun q hq y hy => ?_⟩
  rcases List.mem_append.mp hy with hy | hy
  · exact hr.follows q hq y hy
  · obtain ⟨_, _, _, -, rfl⟩ := Step.actionRequest?_eq_some hq
    rw [List.mem_singleton.mp hy]
    simp [JobRequest.follows, hx, Step.captures_eq hc, hm]

/-- What a step queues up to its markup. -/
theorem Brings.act : Brings (fun r => r.shots = base.shots ∧ r.jobs = base.jobs)
    (Adds tourId k base (s.actionRequest? k).toList) (AddsPart tourId k base s)
    (p.act tourId k s.cue) :=
  (of_leaves (poised_capture hb) fun _ h => h.adds.addsPart).bind fun _ =>
    adds_perform.bind fun _ => of_leaves adds_capture fun _ h => ⟨_, fun _ => id, h⟩

/-- A step that passes queues the jobs that it requests; one that does not, no more than that of its
action. -/
theorem Brings.step : Brings (fun r => r.shots = base.shots ∧ r.jobs = base.jobs)
    (Adds tourId k base (s.requests k)) (AddsPart tourId k base s)
    (p.playCue tourId k s.cue) := by
  refine .playCue (fun r h => (Adds.of_same h.1 h.2).addsPart) (fun _ => .update fun _ _ h => h)
    (.act hb) (fun hm r h => ?_) fun m hm => ?_
  · rw [Step.requests, Step.markupRequest?, hm]
    simpa using h
  · let q : JobRequest := ⟨k, s.cue.markupLabel k, m, true⟩
    have hq : s.markupRequest? k = some q := Option.map_eq_some_iff.mpr ⟨m, hm, rfl⟩
    rw [Step.requests, hq]
    refine .queueMarkup (q := q) rfl (fun r h => ⟨_, fun _ => id, h⟩) fun r h =>
      h.job fun x hx => ?_
    have := h.step_le hb x hx
    simp only [JobRequest.follows, q, Bool.true_and, Bool.or_eq_true, decide_eq_true_eq, beq_iff_eq]
    omega

end

/-- A step that was played has added what it requests if it passed, and a part of that if not. -/
theorem Played.adds {p : Player ι σ} (hc : p.page.TellsTime) {tourId : String} {k : Nat} {s : Step}
    {st st' : State σ} {r : Except Stop Unit} (h : Played p tourId k s.cue st r st')
    (hb : ∀ x ∈ st.result.shots, x.step < k) :
    (r = .ok () → Adds tourId k st.result (s.requests k) st'.result) ∧
      ∀ e, r = .error e → AddsPart tourId k st.result s st'.result := by
  obtain ⟨start, rfl⟩ := h.concluded hc
  set st₁ := (p.playCue tourId k s.cue (p.clocked st)).2
  have hsame : (p.conclude k s.cue start r st₁).2.result.shots = st₁.result.shots ∧
      (p.conclude k s.cue start r st₁).2.result.jobs = st₁.result.jobs :=
    (Leaves.conclude (Q := fun _ r => r.shots = st₁.result.shots ∧ r.jobs = st₁.result.jobs)
      (fun _ _ _ h => h) (fun _ _ _ h => h) r st₁).2 ⟨rfl, rfl⟩
  have hstep : Brings (fun r => r.shots = st.result.shots ∧ r.jobs = st.result.jobs)
      (Adds tourId k st.result (s.requests k)) (AddsPart tourId k st.result s)
      (p.playCue tourId k s.cue) := .step hb
  obtain ⟨hok, herr⟩ := hstep (p.clocked st) ⟨rfl, rfl⟩
  refine ⟨fun hr => ?_, fun e hr => ?_⟩
  · exact (hok () (h.play.trans hr)).congr hsame.1 hsame.2
  · obtain ⟨asked, hasked, hadds⟩ := herr e (h.play.trans hr)
    exact ⟨asked, hasked, hadds.congr hsame.1 hsame.2⟩

/-- What steps have added to a result, from a place in the tour on: some of them passed, and all
that these request was queued; of the next one, that of its action may have been. -/
structure Queues (tourId : String) (k : Nat) (steps : List Step) (n : Nat)
    (asked : Option JobRequest) (base r : Result) : Prop where
  passed : ∃ records, r.records = base.records ++ records ∧
    (records.filter (·.passed)).map (·.step) = List.range' k n
  next : ∀ q ∈ asked, (steps[n]?).bind (Step.actionRequest? (k + n)) = some q
  shots : ∃ later, r.shots = base.shots ++ later ∧ ∀ x ∈ later, (k : Int) ≤ x.step
  jobs : r.jobs = base.jobs ++
    (Step.requestsFrom k (steps.take n) ++ asked.toList).map (JobRequest.job tourId r.shots)

/-- The screenshots of later steps do not change the jobs of a step. -/
theorem Queues.cons {tourId : String} {k n : Nat} {s : Step} {steps : List Step}
    {asked : Option JobRequest} {base r r' : Result} (h : Queues tourId (k + 1) steps n asked r r')
    (ha : Adds tourId k base (s.requests k) r) {x : Record} (hx : x.step = k) (hp : x.passed = true)
    (hr : r.records = base.records ++ [x]) :
    Queues tourId k (s :: steps) (n + 1) asked base r' := by
  obtain ⟨records, hrecords, hpassed⟩ := h.passed
  obtain ⟨own, hown, hstep⟩ := ha.shots
  obtain ⟨later, hlater, hle⟩ := h.shots
  -- a step's job is never for a screenshot of a later step
  have hsame : (s.requests k).map (JobRequest.job tourId r'.shots) =
      (s.requests k).map (JobRequest.job tourId r.shots) := by
    refine List.map_congr_left fun q hq => ?_
    rw [hlater]
    refine JobRequest.job_append tourId fun y hy => JobRequest.follows_eq_false ?_
    have := hle y hy
    rw [Step.step_of_mem_requests hq]
    omega
  refine ⟨⟨x :: records, ?_, ?_⟩, fun q hq => ?_, ⟨own ++ later, ?_, fun y hy => ?_⟩, ?_⟩
  · rw [hrecords, hr, List.append_assoc]
    rfl
  · rw [List.filter_cons_of_pos hp, List.map_cons, hpassed, hx, List.range'_succ]
  · have hasked := h.next q hq
    rwa [Nat.add_right_comm, Nat.add_assoc] at hasked
  · rw [hlater, hown, List.append_assoc]
  · rcases List.mem_append.mp hy with hy | hy
    · exact (hstep y hy).ge
    · have := hle y hy
      omega
  · rw [h.jobs, ha.jobs, List.take_succ_cons, Step.requestsFrom]
    simp only [List.map_append, List.append_assoc, hsame]

/-- The steps of a run queue what they request, up to the step that does not pass. -/
theorem Course.queues {p : Player ι σ} (hc : p.page.TellsTime) {tourId : String} {k : Nat}
    {steps : List Step} {st st' : State σ} {x : Except Fault Unit}
    (h : Course p tourId k (steps.map Step.cue) st x st')
    (hb : ∀ x ∈ st.result.shots, x.step < k) :
    ∃ n asked, Queues tourId k steps n asked st.result st'.result := by
  generalize hcues : steps.map Step.cue = cues at h
  induction h generalizing steps with
  | done k st =>
    exact ⟨0, none, ⟨[], by simp, rfl⟩, by simp, ⟨[], by simp, by simp⟩,
      by simp [Step.requestsFrom]⟩
  | @passed k c cs st st' st'' x hp _ ih =>
    obtain ⟨s, steps, rfl, rfl, rfl⟩ := List.map_eq_cons_iff.mp hcues
    have hadds := (hp.adds hc hb).1 rfl
    obtain ⟨d, hd⟩ := hp.record
    have hnext : ∀ x ∈ st'.result.shots, x.step < ((k + 1 : Nat) : Int) := fun x hx => by
      have := hadds.step_le hb x hx
      omega
    obtain ⟨n, asked, hqueues⟩ := ih hnext rfl
    exact ⟨n + 1, asked, hqueues.cons hadds rfl rfl hd⟩
  | @stopped k c st st' e cs hp =>
    obtain ⟨s, steps, rfl, rfl, rfl⟩ := List.map_eq_cons_iff.mp hcues
    obtain ⟨asked, hasked, hadds⟩ := (hp.adds hc hb).2 e rfl
    obtain ⟨d, hd⟩ := hp.record
    obtain ⟨own, hown, hstep⟩ := hadds.shots
    exact ⟨0, asked, ⟨_, hd, rfl⟩, hasked, ⟨own, hown, fun y hy => (hstep y hy).ge⟩, hadds.jobs⟩

/-- No screenshot that steps plan has an empty path or is called what its path is. -/
theorem path_ne_of_mem_shotsFrom {directory : Path} {k : Nat} {steps : List Step} {x : Shot}
    (h : x ∈ Step.shotsFrom directory k steps) : x.path ≠ "" ∧ x.path ≠ x.name := by
  obtain ⟨i, s, hx⟩ := Step.exists_of_mem_shotsFrom h
  obtain ⟨name, fullPage, rfl⟩ := Step.exists_of_mem_shots hx
  rw [plannedShot_path]
  exact shotPath_text_ne directory i name

namespace Player

/-- Whatever a page does, the jobs of a run are those that the passed steps request, in their order,
and of the next step that of its action, if it was queued. A job is for the last screenshot that was
made before it, or for the last one of those with its target's name; nothing or the target stands in
place of its path exactly if there is no such screenshot. -/
theorem run_jobs (p : Player ι σ) (t : Tour) (sc : Scene σ) (hc : p.page.TellsTime) :
    let r := p.outcome t sc
    ∃ (n : Nat) (asked : Option JobRequest),
      let requests := Step.requestsFrom 0 (t.steps.take n) ++ asked.toList
      (r.records.filter (·.passed)).map (·.step) = List.range n ∧
      (∀ q ∈ asked, (t.steps[n]?).bind (Step.actionRequest? n) = some q) ∧
      r.jobs = requests.map (JobRequest.job t.id r.shots) ∧
      (∀ q ∈ requests, q.path r.shots = q.markup.target.getD "" ↔ q.candidates r.shots = []) ∧
      r.shots.Sublist (Step.shotsFrom p.config.directory 0 t.steps) ∧
      r.jobs.Pairwise (·.step ≤ ·.step) ∧ (∀ i : Nat, r.jobs.countP (·.step == (i : Int)) ≤ 2) ∧
      ∀ r', (p.run t sc).1 = .ok r' → r' = r := by
  intro r
  have hgallery : Gallery p.config.directory (Step.shotsFrom p.config.directory 0 t.steps)
      (p.play t.id t.cues (.fresh t.id sc)).2.scene.files r :=
    (gallery_play t.id t.steps (.fresh t.id sc)).2 ⟨List.nil_sublist _, by simp [State.fresh]⟩
  have hqueues : ∃ n asked, Queues t.id 0 t.steps n asked { tourId := t.id } r := by
    obtain ⟨-, hout, -⟩ | ⟨st, x, s, hb, hcourse, hout⟩ := outcome_cases (p := p) t sc hc
    · exact ⟨0, none, ⟨[], by simp [r, hout], rfl⟩, by simp, ⟨[], by simp [r, hout], by simp⟩,
        by simp [r, hout, Step.requestsFrom]⟩
    · have hfresh : st.result = { tourId := t.id } := hb.state.2.2
      have h := hcourse.queues hc (by simp [hfresh])
      rwa [hfresh, ← hout] at h
  obtain ⟨n, asked, h⟩ := hqueues
  obtain ⟨records, hrecords, hpassed⟩ := h.passed
  have hnext (q : JobRequest) (hq : q ∈ asked) :
      (t.steps[n]?).bind (Step.actionRequest? n) = some q := by
    have := h.next q hq
    rwa [Nat.zero_add] at this
  have hjobs := h.jobs
  have hprefix := Step.requestsFrom_take_prefix 0 n t.steps asked h.next
  refine ⟨n, asked, ?_, hnext, hjobs, fun q _ => ?_, hgallery.planned, ?_, fun i => ?_,
    fun r' hr' => (p.run_eq_ok hr').2⟩
  · rw [hrecords, List.nil_append, hpassed, List.range_eq_range']
  · exact JobRequest.path_eq_iff fun x hx => path_ne_of_mem_shotsFrom (hgallery.planned.subset hx)
  · rw [hjobs, List.nil_append, List.pairwise_map]
    refine ((Step.pairwise_requestsFrom 0 t.steps).sublist hprefix.sublist).imp fun hle => ?_
    exact Int.ofNat_le.mpr hle
  · have hsame : ((fun j : Job => j.step == (i : Int)) ∘ JobRequest.job t.id r.shots) =
        fun q => q.step == i := by
      funext q
      rw [Bool.eq_iff_iff]
      simp [JobRequest.job]
    rw [hjobs, List.nil_append, List.countP_map, hsame]
    exact hprefix.sublist.countP_le.trans (Step.countP_requestsFrom_le 0 t.steps i)

/-- A job can be for a capture of its own step; a capture that fails does not count, nor does a
markup of a step that fails. -/
theorem run_jobs_own_capture :
    let refuse (c : PageCall) : Option Fault :=
      if c = .screenshot "run/screens/002_late.png" (.bool true) ∨ c = .pause (.int 7)
      then some (.page .browser "page closed") else none
    let p : Player Int (List Called) := ⟨.refusing refuse 0, .exact,
      { baseUrl := "http://app.test", routes := [], directory := "run", date := "2026-01-01" }⟩
    let t : Tour := ⟨"demo", none, [
      ⟨.screenshot "home" none none, {}⟩,
      ⟨.annotate "Menu" "Mark it" none,
        { capture := some ⟨.before, "menu", none⟩, markup := some ⟨"Box it", some "home"⟩ }⟩,
      ⟨.waitMs 5,
        { capture := some ⟨.after, "late", none⟩, markup := some ⟨"Blur it", some "late"⟩ }⟩,
      ⟨.waitMs 7, { markup := some ⟨"Crop it", none⟩ }⟩]⟩
    let sc : Scene (List Called) := { page := [] }
    let r := p.outcome t sc
    p.page.TellsTime ∧ r.records.map (·.passed) = [true, true, true, false] ∧
      r.jobs = (Step.requestsFrom 0 (t.steps.take 3)).map (JobRequest.job "demo" r.shots) ∧
      r.jobs.map (fun j => (j.step, j.screenshot)) = [(1, .str "run/screens/001_menu.png"),
        (1, .str "run/screens/000_home.png"), (2, .str "late")] := by
  intro refuse p t sc r
  have hc : p.page.TellsTime := Page.refusing_tellsTime refuse 0
  obtain ⟨n, asked, hpassed, hasked, hjobs, -⟩ := p.run_jobs t sc hc
  have hsteps : (r.records.filter (·.passed)).map (·.step) = [0, 1, 2] := by decide +kernel
  have hn : n = 3 := by
    have hlength := congrArg List.length (hpassed.symm.trans hsteps)
    rwa [List.length_range] at hlength
  subst hn
  have hnone : asked = none := by
    cases asked with
    | none => rfl
    | some q => cases hasked q rfl
  subst hnone
  rw [Option.toList_none, List.append_nil] at hjobs
  exact ⟨hc, by decide +kernel, hjobs, by decide +kernel⟩

end Player

end Run

end Walkthrough
