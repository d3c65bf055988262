import Walkthrough.Proofs.Run.Ending
/-!
The calls that an action of a run makes, whatever state it begins in and however it ends: those of
its parts, so that what is known of every call of a step is known of every call of a run.
-/

namespace Walkthrough

namespace Run

variable {ε ι σ α β : Type}

/-- Whatever state an action begins in, it makes calls of one kind only. -/
def Calls (p : Player ι σ) (K : PageCall → Prop) (a : Play ε σ α) : Prop :=
  ∀ st, ∃ cs, p.page.Leads st.scene.page cs (a st).2.scene.page ∧ ∀ c ∈ cs, K c.call

namespace Calls

variable {p : Player ι σ} {K K' : PageCall → Prop} {a : Play ε σ α} {f : α → Play ε σ β}

theorem mono (h : Calls p K a) (hk : ∀ c, K c → K' c) : Calls p K' a := by
  intro st
  obtain ⟨cs, hl, hc⟩ := h st
  exact ⟨cs, hl, fun c hcs => hk _ (hc c hcs)⟩

/-- What leaves the page alone calls nothing. -/
theorem quiet (h : ∀ st, (a st).2.scene.page = st.scene.page) : Calls p K a := by
  intro st
  refine ⟨[], ?_, by simp⟩
  rw [h st]
  exact .here _

/-- What follows a plan makes the calls of the plan. -/
theorem of_behaves {plan : Language PageCall} {a : Play Stop σ α}
    (h : Behaves p (fun _ => True) plan True False a) (hp : ∀ w ∈ plan, ∀ c ∈ w, K c) :
    Calls p K a := by
  intro st
  obtain ⟨cs, hl, ⟨⟨w, hw, hpre, -⟩, -⟩⟩ := (h st).calls
  exact ⟨cs, hl, fun c hc => hp w hw _ (hpre.subset (List.mem_map_of_mem hc))⟩

theorem bind (ha : Calls p K a) (hf : ∀ x, Calls p K (f x)) : Calls p K (a >>= f) := by
  intro st
  obtain ⟨cs, hl, hc⟩ := ha st
  rw [Attempt.bind_apply]
  rcases has : a st with ⟨e | x, st'⟩
  · rw [has] at hl
    exact ⟨cs, hl, hc⟩
  · rw [has] at hl
    obtain ⟨cs', hl', hc'⟩ := hf x st'
    exact ⟨cs ++ cs', hl.trans hl', List.forall_mem_append.mpr ⟨hc, hc'⟩⟩

theorem onFault {a : Play Stop σ α} {handle : Fault → Play Stop σ α} (ha : Calls p K a)
    (hh : ∀ g, Calls p K (handle g)) : Calls p K (onFault a handle) := by
  intro st
  obtain ⟨cs, hl, hc⟩ := ha st
  rw [onFault_apply]
  rcases has : a st with ⟨(_ | g) | x, st'⟩
  · rw [has] at hl
    exact ⟨cs, hl, hc⟩
  · rw [has] at hl
    obtain ⟨cs', hl', hc'⟩ := hh g st'
    exact ⟨cs ++ cs', hl.trans hl', List.forall_mem_append.mpr ⟨hc, hc'⟩⟩
  · rw [has] at hl
    exact ⟨cs, hl, hc⟩

theorem outcome {ε' : Type} (ha : Calls p K a) :
    Calls p K (Attempt.outcome a : Play ε' σ (Except ε α)) := ha

theorem thenAlways {last : Play ε σ Unit} (ha : Calls p K a) (hl : Calls p K last) :
    Calls p K (Attempt.thenAlways a last : Play ε σ α) :=
  bind ha.outcome fun _ => bind hl fun _ => quiet fun _ => rfl

theorem ask {c : PageCall} (h : K c) : Calls p K (p.ask c) := by
  intro st
  refine ⟨_, .call c (.here _), ?_⟩
  intro d hd
  rw [List.mem_singleton.mp hd]
  exact h

theorem now (cause : Fault → ε) : Calls p K (p.now cause) :=
  fun _ => ⟨[], .clock (.here _), by simp⟩

theorem timeLeft (deadline : ι) : Calls p K (p.timeLeft deadline) :=
  bind (now _) fun _ => quiet fun _ => rfl

/-- Work on files is no call. -/
theorem file {w : Filing α} (cause : Fault → ε) :
    Calls p K (onScene cause (Act.file w) : Play ε σ α) := quiet fun _ => rfl

/-- A step makes the calls of its plan, whatever becomes of it. -/
theorem playCue {tourId : String} {index : Nat} {c : Cue}
    (h : ∀ w ∈ stepPlan p.config index c, ∀ call ∈ w, K call) :
    Calls p K (p.playCue tourId index c) := by
  have hcue : Behaves p (fun _ => True) (stepPlan p.config index c) True False
      (p.playCue tourId index c) :=
    (Behaves.playCue False.elim).mono (fun _ h => h) fun _ => trivial
  exact .of_behaves hcue h

/-- Whether a step passes or not, no call comes with its record. -/
theorem recordCue {tourId : String} {index : Nat} {c : Cue}
    (h : Calls p K (p.playCue tourId index c)) : Calls p K (p.recordCue tourId index c) := by
  have hrecord (start : ι) (passed : Bool) : Calls p K (p.record index c start passed) :=
    .bind (.now _) fun _ => .quiet fun _ => rfl
  unfold Player.recordCue
  refine .bind (.now _) fun start => .bind h.outcome fun r => ?_
  rcases r with (⟨why, m⟩ | f) | ⟨⟩
  · exact .bind (.quiet fun _ => rfl) fun _ => .bind (hrecord start false) fun _ =>
      .quiet fun _ => rfl
  · exact .bind (.quiet fun _ => rfl) fun _ => .bind (hrecord start false) fun _ =>
      .quiet fun _ => rfl
  · exact .bind (hrecord start true) fun _ => .quiet fun _ => rfl

theorem playCues {tourId : String} {k : Nat} {cues : List Cue}
    (h : ∀ index, ∀ c ∈ cues, Calls p K (p.playCue tourId index c)) :
    Calls p K (p.playCues tourId k cues) := by
  induction cues generalizing k with
  | nil => exact .quiet fun _ => rfl
  | cons c cues ih =>
    have hrest : Calls p K (p.playCues tourId (k + 1) cues) :=
      ih fun index d hd => h index d (List.mem_cons_of_mem _ hd)
    rw [Player.playCues]
    refine .bind (h k c List.mem_cons_self).recordCue fun goesOn => ?_
    split_ifs
    · exact hrest
    · exact .quiet fun _ => rfl

/-- Around its steps a run makes no call but that for the script of the page. -/
theorem play {tourId : String} {cues : List Cue} (hk : K .addInitScript)
    (h : ∀ index, ∀ c ∈ cues, Calls p K (p.playCue tourId index c)) :
    Calls p K (p.play tourId cues) := by
  have hscript : Calls p K (onScene id (Act.ask p.page .addInitScript) : Play Fault σ Unit) := by
    intro st
    refine ⟨_, .call .addInitScript (.here _), fun c hc => ?_⟩
    rw [List.mem_singleton.mp hc]
    exact hk
  have hfinish : Calls p K p.finish :=
    .bind (.quiet fun _ => rfl) fun _ => .bind (.file _) fun _ => .quiet fun _ => rfl
  have hnotes : Calls p K p.writeNotes := .bind (.quiet fun _ => rfl) fun _ => .file _
  rw [Player.play_eq]
  exact .bind (.bind (.file _) fun _ => .file _) fun _ =>
    .thenAlways (.bind (.quiet fun _ => rfl) fun _ =>
      .thenAlways (.bind hscript fun _ => playCues h) hfinish) hnotes

end Calls

end Run

end Walkthrough
