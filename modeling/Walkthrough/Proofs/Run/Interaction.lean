import Walkthrough.Proofs.Run.Rounds
/-!
An action on an element from its beginning to its end: the clock is read, the time is counted, the
rounds are gone through, and where they come to nothing the elements are counted.
-/

namespace Walkthrough.Run

variable {ι σ : Type}

/-- What is heard of a count of elements. -/
def counted (selector : String) (r : Except Fault Int) : Heard ι := .answer ⟨.count selector, r⟩

/-- What is heard when an action is given up, and how the step ends then. -/
inductive GaveUp (selector : String) : List (Heard ι) → Stop → Prop
  | unknown (f : Fault) : GaveUp selector [counted selector (.error f)] (.raised f)
  | absent (message : String) :
    GaveUp selector [counted selector (.ok 0)] (.failed .elementNotFound message)
  | present {n : Int} (h : n ≠ 0) (message : String) :
    GaveUp selector [counted selector (.ok n)] (.failed .timeout message)

/-- What an action on an element hears, and how it ends. -/
inductive Interacted (timing : Timing ι) (selector : String) (act : Number → PageCall)
    (timeout : Json) : List (Heard ι) → Except Stop Unit → Prop
  | untimed (start : ι) {e : KindFault} (he : timeout.asTime = .error e) :
    Interacted timing selector act timeout [.reading start] (.error (.raised (.kind e)))
  | endless {start : ι} {n : Number} {e : NumberFault} (hn : timeout.asTime = .ok n)
    (he : timing.after start n = .error e) :
    Interacted timing selector act timeout [.reading start] (.error (.raised (.number e)))
  | uncounted {start deadline t : ι} {n : Number} {e : NumberFault} (hn : timeout.asTime = .ok n)
    (hd : timing.after start n = .ok deadline) (he : timing.left deadline t = .error e) :
    Interacted timing selector act timeout [.reading start, .reading t]
      (.error (.raised (.number e)))
  | acted {start deadline t : ι} {n : Number} {left : Int} {hs : List (Heard ι)}
    (hn : timeout.asTime = .ok n) (hd : timing.after start n = .ok deadline)
    (hl : timing.left deadline t = .ok left)
    (hr : Rounds timing selector act deadline left hs (.ok true)) :
    Interacted timing selector act timeout ([.reading start, .reading t] ++ hs) (.ok ())
  | broken {start deadline t : ι} {n : Number} {left : Int} {hs : List (Heard ι)} {e : Stop}
    (hn : timeout.asTime = .ok n) (hd : timing.after start n = .ok deadline)
    (hl : timing.left deadline t = .ok left)
    (hr : Rounds timing selector act deadline left hs (.error e)) :
    Interacted timing selector act timeout ([.reading start, .reading t] ++ hs) (.error e)
  | gaveUp {start deadline t : ι} {n : Number} {left : Int} {hs hs' : List (Heard ι)} {e : Stop}
    (hn : timeout.asTime = .ok n) (hd : timing.after start n = .ok deadline)
    (hl : timing.left deadline t = .ok left)
    (hr : Rounds timing selector act deadline left hs (.ok false)) (hg : GaveUp selector hs' e) :
    Interacted timing selector act timeout ([.reading start, .reading t] ++ hs ++ hs') (.error e)

section

variable {timing : Timing ι} {selector : String} {act : Number → PageCall} {deadline : ι}
  {left : Int} {hs : List (Heard ι)}

theorem Tried.handles {r : Except Fault Bool} (h : Tried timing selector act deadline left hs r) :
    ∀ a, .answer a ∈ hs → Handles selector act a.call := by
  cases h <;> simp [waited, Handles]

theorem Breathed.handles {r : Except Fault Int} (h : Breathed timing deadline hs r) :
    ∀ a, .answer a ∈ hs → Handles selector act a.call := by
  cases h <;> simp [paused, Handles]

theorem Round.handles {r : Except Stop (Bool ⊕ Int)}
    (h : Round timing selector act deadline left hs r) :
    ∀ a, .answer a ∈ hs → Handles selector act a.call := by
  cases h with
  | late => simp
  | done _ ht | timeout _ ht _ | foreign _ ht _ | lasting _ ht _ _ _ => exact ht.handles
  | broken _ ht _ hb | again _ ht _ hb =>
    intro a ha
    exact (List.mem_append.mp ha).elim (ht.handles a) (hb.handles a)

theorem Rounds.handles {r : Except Stop Bool} (h : Rounds timing selector act deadline left hs r) :
    ∀ a, .answer a ∈ hs → Handles selector act a.call := by
  induction h with
  | stopped h | settled h => exact h.handles
  | again h _ ih =>
    intro a ha
    exact (List.mem_append.mp ha).elim (h.handles a) (ih a)

/-- An action on an element makes no calls but those with which it is handled. -/
theorem Interacted.handles {timeout : Json} {r : Except Stop Unit}
    (h : Interacted timing selector act timeout hs r) :
    ∀ a, .answer a ∈ hs → Handles selector act a.call := by
  have hgave {hs : List (Heard ι)} {e : Stop} (hg : GaveUp selector hs e) :
      ∀ a, .answer a ∈ hs → Handles selector act a.call := by
    cases hg <;> simp [counted, Handles]
  cases h with
  | untimed | endless | uncounted => simp
  | acted _ _ _ hr | broken _ _ _ hr =>
    intro a ha
    simp only [List.mem_append, List.mem_cons, reduceCtorEq, List.not_mem_nil, or_self,
      false_or] at ha
    exact hr.handles a ha
  | gaveUp _ _ _ hr hg =>
    intro a ha
    simp only [List.mem_append, List.mem_cons, reduceCtorEq, List.not_mem_nil, or_self,
      false_or] at ha
    exact ha.elim (hr.handles a) (hgave hg a)

end

namespace Player

variable (p : Player ι σ)

/-- Some tries of an action; it is given up if none of them did. -/
def tryOut (tries : Int → Nat) (anchor verb : String) (act : Number → PageCall) (deadline : ι)
    (words : String) (left : Int) : Play Stop σ Unit := do
  match ← p.attempts anchor verb act deadline (tries left) left with
  | some true => pure ()
  | some false => p.giveUp anchor verb words
  | none => throw (.raised interruption)

/-- An action on an element with another number of tries. -/
def interactWithin (tries : Int → Nat) (anchor verb : String) (act : Number → PageCall)
    (timeout : Option Json) : Play Stop σ Unit := do
  let timeout := timeout.getD (.num p.config.defaultTimeout)
  let start ← p.now .raised
  let time ← kindly timeout.asTime
  let deadline ← Attempt.decided
    ((p.timing.after start time).mapError fun f => .raised (.number f))
  let left ← p.timeLeft deadline
  p.tryOut tries anchor verb act deadline timeout.words left

theorem interact_eq_interactWithin (anchor verb : String) (act : Number → PageCall)
    (timeout : Option Json) :
    p.interact anchor verb act timeout = p.interactWithin p.tries anchor verb act timeout := rfl

variable {p}

section

variable {tries : Int → Nat} {anchor verb : String} {act : Number → PageCall}
  {timeout : Option Json} {start : ι} {n : Number} {st : State σ}
  (hstart : p.now Stop.raised st = (.ok start, p.clocked st))
  (hn : (timeout.getD (.num p.config.defaultTimeout)).asTime = .ok n)

include hstart hn

theorem interactWithin_endless {e : NumberFault} (hd : p.timing.after start n = .error e) :
    p.interactWithin tries anchor verb act timeout st =
      (.error (.raised (.number e)), p.clocked st) := by
  have hkind : (kindly (.ok n) : Play Stop σ Number) (p.clocked st) = (.ok n, p.clocked st) := rfl
  unfold interactWithin
  rw [Attempt.bind_ok hstart, hn, Attempt.bind_ok hkind, hd]
  rfl

/-- With a time that can be counted an action on an element comes to its tries. -/
theorem interactWithin_apply {deadline : ι} (hd : p.timing.after start n = .ok deadline) :
    p.interactWithin tries anchor verb act timeout st =
      (p.timeLeft deadline >>= p.tryOut tries anchor verb act deadline
        (timeout.getD (.num p.config.defaultTimeout)).words) (p.clocked st) := by
  have hkind : (kindly (.ok n) : Play Stop σ Number) (p.clocked st) = (.ok n, p.clocked st) := rfl
  unfold interactWithin
  rw [Attempt.bind_ok hstart, hn, Attempt.bind_ok hkind, hd]
  rfl

end

theorem giveUp_tells (anchor verb words : String) (st : State σ) :
    ∃ hs e, p.page.Tells st.scene.page hs
        ((p.giveUp anchor verb words : Play Stop σ Unit) st).2.scene.page ∧
      GaveUp (selectorOf anchor) hs e ∧
      ((p.giveUp anchor verb words : Play Stop σ Unit) st).1 = .error e := by
  unfold giveUp
  rcases hc : (p.page.answer (.count (selectorOf anchor)) st.scene.page).1 with f | n
  · rw [Attempt.bind_error (ask_error hc)]
    exact ⟨_, .raised f, .one _ hc, .unknown f, rfl⟩
  rw [Attempt.bind_ok (ask_ok hc)]
  by_cases h : n = 0
  · subst h
    exact ⟨_, _, .one _ hc, .absent _, rfl⟩
  · rw [if_neg h]
    exact ⟨_, _, .one _ hc, .present h _, rfl⟩

theorem interact_tells (hc : p.page.TellsTime) {timeout : Option Json}
    (hends : p.TriesEnd (timeout.getD (.num p.config.defaultTimeout))) (anchor verb : String)
    (act : Number → PageCall) (st : State σ) :
    ∃ hs, p.page.Tells st.scene.page hs (p.interact anchor verb act timeout st).2.scene.page ∧
      Interacted p.timing (selectorOf anchor) act (timeout.getD (.num p.config.defaultTimeout)) hs
        (p.interact anchor verb act timeout st).1 := by
  obtain ⟨start, hclock, hstart⟩ := now_reading hc Stop.raised st
  have hread : p.page.Tells st.scene.page [.reading start] (p.clocked st).scene.page :=
    .reading hclock (.nothing _)
  rw [interact_eq_interactWithin]
  cases hn : (timeout.getD (.num p.config.defaultTimeout)).asTime with
  | error e =>
    unfold interactWithin
    rw [Attempt.bind_ok hstart, hn]
    exact ⟨_, hread, .untimed start hn⟩
  | ok n =>
  cases hd : p.timing.after start n with
  | error e =>
    rw [interactWithin_endless hstart hn hd]
    exact ⟨_, hread, .endless hn hd⟩
  | ok deadline =>
  rw [interactWithin_apply hstart hn hd]
  obtain ⟨t, hclock', ⟨e, hl, htime⟩ | ⟨left, hl, htime⟩⟩ :=
    timeLeft_cases hc deadline (p.clocked st)
  all_goals
    have hread' := hread.trans (.reading hclock' (.nothing _))
  · rw [Attempt.bind_error htime]
    exact ⟨_, hread', .uncounted hn hd hl⟩
  rw [Attempt.bind_ok htime]
  obtain ⟨hs, r, htells, hrounds, hr⟩ :=
    attempts_tells hc (hends n deadline hn ⟨start, ⟨_, hclock⟩, hd⟩ anchor verb act left _ _ htime)
  unfold tryOut
  rw [Attempt.bind_apply]
  generalize p.attempts anchor verb act deadline _ left _ = x at htells hr ⊢
  obtain ⟨r', st₁⟩ := x
  obtain rfl : r' = r.map some := hr
  obtain e | _ | _ := r
  · exact ⟨_, hread'.trans htells, .broken hn hd hl hrounds⟩
  · obtain ⟨hs', e, hgive, hgave, he⟩ := giveUp_tells (p := p) anchor verb
      (timeout.getD (.num p.config.defaultTimeout)).words st₁
    refine ⟨_, (hread'.trans htells).trans hgive, ?_⟩
    change Interacted _ _ _ _ _ (p.giveUp anchor verb _ st₁).1
    rw [he]
    exact .gaveUp hn hd hl hrounds hgave
  · exact ⟨_, hread'.trans htells, .acted hn hd hl hrounds⟩

end Player

end Walkthrough.Run
