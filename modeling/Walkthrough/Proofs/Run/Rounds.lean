import Walkthrough.Proofs.Run.Talk
/-!
The rounds of an action on an element. In each the element is waited for and, if there is time left
then, acted on; an error that may pass is followed by a pause and another round. How many tries are
waited for is no part of this. Where the clock goes forward the rounds come to an end within them.
-/

namespace Walkthrough.Run

variable {ι σ : Type}

/-- A call that acts on the element of a selector, for a time. -/
def ActsOn (selector : String) (act : Number → PageCall) : Prop :=
  act = .click selector ∨ ∃ value, act = .fill selector value

section

variable (timing : Timing ι) (selector : String) (act : Number → PageCall) (deadline : ι)

/-- What is heard of the wait for an element. -/
def waited (left : Int) (r : Except Fault Unit) : Heard ι :=
  .answer ⟨.waitVisible selector (.int left), r⟩

/-- What is heard of the pause between two tries. -/
def paused (r : Except Fault Unit) : Heard ι := .answer ⟨.pause (.num retryInterval), r⟩

/-- What a try hears, and what comes of it. -/
inductive Tried (left : Int) : List (Heard ι) → Except Fault Bool → Prop
  | unseen (f : Fault) : Tried left [waited selector left (.error f)] (.error f)
  | uncounted {t : ι} {e : NumberFault} (he : timing.left deadline t = .error e) :
    Tried left [waited selector left (.ok ()), .reading t] (.error (.number e))
  | late {t : ι} {l : Int} (hl : timing.left deadline t = .ok l) (h : l ≤ 0) :
    Tried left [waited selector left (.ok ()), .reading t] (.ok false)
  | refused {t : ι} {l : Int} (hl : timing.left deadline t = .ok l) (h : 0 < l) (f : Fault) :
    Tried left [waited selector left (.ok ()), .reading t, .answer ⟨act (.int l), .error f⟩]
      (.error f)
  | acted {t : ι} {l : Int} (hl : timing.left deadline t = .ok l) (h : 0 < l)
    (x : (act (.int l)).Answer) :
    Tried left [waited selector left (.ok ()), .reading t, .answer ⟨act (.int l), .ok x⟩]
      (.ok true)

/-- An error after which an action is tried again. -/
structure MayPass (f : Fault) : Prop where
  browser : f.isBrowser = true
  timeout : f.isTimeout = false
  transient : isTransient f = true

/-- What is heard of the pause between two tries and the look at the clock behind it. -/
inductive Breathed : List (Heard ι) → Except Fault Int → Prop
  | stuck (f : Fault) : Breathed [paused (.error f)] (.error f)
  | uncounted {t : ι} {e : NumberFault} (he : timing.left deadline t = .error e) :
    Breathed [paused (.ok ()), .reading t] (.error (.number e))
  | counted {t : ι} {l : Int} (hl : timing.left deadline t = .ok l) :
    Breathed [paused (.ok ()), .reading t] (.ok l)

/-- What a round hears, and what comes of it: how the action ends, or the time that is left for
another round. -/
inductive Round (left : Int) : List (Heard ι) → Except Stop (Bool ⊕ Int) → Prop
  | late (h : left ≤ 0) : Round left [] (.ok (.inl false))
  | done {hs : List (Heard ι)} {b : Bool} (h : 0 < left)
    (ht : Tried timing selector act deadline left hs (.ok b)) : Round left hs (.ok (.inl b))
  | timeout {hs : List (Heard ι)} {f : Fault} (h : 0 < left)
    (ht : Tried timing selector act deadline left hs (.error f)) (hf : f.isTimeout = true) :
    Round left hs (.ok (.inl false))
  | foreign {hs : List (Heard ι)} {f : Fault} (h : 0 < left)
    (ht : Tried timing selector act deadline left hs (.error f)) (hf : f.isBrowser = false) :
    Round left hs (.error (.raised f))
  | lasting {hs : List (Heard ι)} {f : Fault} (h : 0 < left)
    (ht : Tried timing selector act deadline left hs (.error f)) (hb : f.isBrowser = true)
    (hf : f.isTimeout = false) (message : String) : Round left hs (.error (.failed .error message))
  | broken {hs hs' : List (Heard ι)} {f g : Fault} (h : 0 < left)
    (ht : Tried timing selector act deadline left hs (.error f)) (hf : MayPass f)
    (hb : Breathed timing deadline hs' (.error g)) : Round left (hs ++ hs') (.error (.raised g))
  | again {hs hs' : List (Heard ι)} {f : Fault} {l : Int} (h : 0 < left)
    (ht : Tried timing selector act deadline left hs (.error f)) (hf : MayPass f)
    (hb : Breathed timing deadline hs' (.ok l)) : Round left (hs ++ hs') (.ok (.inr l))

/-- What all rounds of an action hear, and how it ends. -/
inductive Rounds : Int → List (Heard ι) → Except Stop Bool → Prop
  | stopped {left : Int} {hs : List (Heard ι)} {e : Stop}
    (h : Round timing selector act deadline left hs (.error e)) : Rounds left hs (.error e)
  | settled {left : Int} {hs : List (Heard ι)} {b : Bool}
    (h : Round timing selector act deadline left hs (.ok (.inl b))) : Rounds left hs (.ok b)
  | again {left l : Int} {hs hs' : List (Heard ι)} {r : Except Stop Bool}
    (h : Round timing selector act deadline left hs (.ok (.inr l))) (hr : Rounds l hs' r) :
    Rounds left (hs ++ hs') r

end

/-- A round that is followed by another ends with a pause, and with a reading of the clock from
which the time for the other is counted. -/
theorem Round.exists_of_again {timing : Timing ι} {selector : String} {act : Number → PageCall}
    {deadline : ι} {left l : Int} {hs : List (Heard ι)}
    (h : Round timing selector act deadline left hs (.ok (.inr l))) :
    0 < left ∧ ∃ es t, timing.left deadline t = .ok l ∧
      hs = es ++ [paused (.ok ()), .reading t] := by
  generalize hx : (Except.ok (Sum.inr l) : Except Stop (Bool ⊕ Int)) = x at h
  cases h with
  | @again hs hs' f l h ht hf hb =>
    cases hx
    refine ⟨h, hs, ?_⟩
    generalize hy : (Except.ok l : Except Fault Int) = y at hb
    cases hb with
    | counted hl =>
      cases hy
      exact ⟨_, hl, rfl⟩
    | _ => cases hy
  | _ => cases hx

namespace Player

variable (p : Player ι σ)

/-- The pause between two tries, and the time that is left behind it. -/
def breathe (deadline : ι) : Play Stop σ Int := do
  let _ : Unit ← p.ask (.pause (.num retryInterval))
  p.timeLeft deadline

/-- What is done about an error of a try, up to the next. -/
def recover (anchor verb : String) (deadline : ι) (f : Fault) : Play Stop σ (Bool ⊕ Int) := do
  if f.isTimeout then return .inl false
  if !f.isBrowser then throw (.raised f)
  if !isTransient f then fail .error s!"{verb} failed for {anchor}: {f.firstLine}"
  log .debug s!"Retrying {verb} on {anchor} after transient error: {f.firstLine}"
  return .inr (← p.breathe deadline)

/-- A round of an action. -/
def round (anchor verb : String) (act : Number → PageCall) (deadline : ι) (left : Int) :
    Play Stop σ (Bool ⊕ Int) :=
  if left ≤ 0 then pure (.inl false) else
    onFault (do return .inl (← p.tryOnce anchor act deadline left)) (p.recover anchor verb deadline)

variable {p} {anchor verb : String} {act : Number → PageCall} {deadline : ι}

theorem retry_eq (again : Int → Play Stop σ (Option Bool)) (f : Fault) :
    p.retry anchor verb (do again (← p.timeLeft deadline)) f =
      p.recover anchor verb deadline f >>= fun
        | .inl b => pure (some b)
        | .inr l => again l := by
  funext st
  unfold retry recover breathe
  cases f.isTimeout
  · cases f.isBrowser
    · rfl
    · cases isTransient f
      · rfl
      · simp only [Bool.not_true, Bool.false_eq_true, if_false, bind_assoc, pure_bind]
  · rfl

/-- Tries are rounds, as long as there are any. -/
theorem attempts_eq_round (tries : Nat) (left : Int) :
    p.attempts anchor verb act deadline (tries + 1) left =
      p.round anchor verb act deadline left >>= fun
        | .inl b => pure (some b)
        | .inr l => p.attempts anchor verb act deadline tries l := by
  rw [attempts_succ, round]
  split_ifs with h
  · rfl
  funext st
  rw [onFault_apply, Attempt.bind_apply, Attempt.bind_apply, onFault_apply, Attempt.bind_apply]
  rcases p.tryOnce anchor act deadline left st with ⟨(⟨k, m⟩ | g) | x, st'⟩
  · rfl
  · change p.retry anchor verb _ g st' = _
    rw [retry_eq, Attempt.bind_apply]
  · rfl

theorem tryOnce_tells (anchor : String) (act : Number → PageCall) (deadline : ι)
    (hc : p.page.TellsTime) (left : Int) (st : State σ) :
    ∃ hs r, p.page.Tells st.scene.page hs (p.tryOnce anchor act deadline left st).2.scene.page ∧
      Tried p.timing (selectorOf anchor) act deadline left hs r ∧
      (p.tryOnce anchor act deadline left st).1 = r.mapError .raised := by
  unfold tryOnce
  rcases hw : (p.page.answer (.waitVisible (selectorOf anchor) (.int left)) st.scene.page).1
    with f | ⟨⟩
  · rw [Attempt.bind_error (ask_error hw)]
    exact ⟨_, .error f, .one _ hw, .unseen f, rfl⟩
  rw [Attempt.bind_ok (ask_ok hw)]
  generalize hst : p.asked (.waitVisible (selectorOf anchor) (.int left)) st = st₁
  obtain ⟨t, ht, ⟨e, hl, htime⟩ | ⟨l, hl, htime⟩⟩ := timeLeft_cases hc deadline st₁
  all_goals
    have hread : p.page.Tells st.scene.page [waited (selectorOf anchor) left (.ok ()), .reading t]
        (p.clocked st₁).scene.page := by
      subst hst
      exact (Page.Tells.one _ hw).trans (.reading ht (.nothing _))
  · rw [Attempt.bind_error htime]
    exact ⟨_, .error (.number e), hread, .uncounted hl, rfl⟩
  rw [Attempt.bind_ok htime]
  by_cases h : l ≤ 0
  · rw [if_pos h]
    exact ⟨_, .ok false, hread, .late hl h, rfl⟩
  rw [if_neg h]
  rcases ha : (p.page.answer (act (.int l)) (p.clocked st₁).scene.page).1 with f | x
  · rw [Attempt.bind_error (ask_error ha)]
    exact ⟨_, .error f, hread.trans (.one _ ha), .refused hl (not_le.mp h) f, rfl⟩
  · rw [Attempt.bind_ok (ask_ok ha)]
    exact ⟨_, .ok true, hread.trans (.one _ ha), .acted hl (not_le.mp h) x, rfl⟩

theorem breathe_tells (deadline : ι) (hc : p.page.TellsTime) (st : State σ) :
    ∃ hs r, p.page.Tells st.scene.page hs (p.breathe deadline st).2.scene.page ∧
      Breathed p.timing deadline hs r ∧ (p.breathe deadline st).1 = r.mapError .raised := by
  unfold breathe
  rcases hp : (p.page.answer (.pause (.num retryInterval)) st.scene.page).1 with f | ⟨⟩
  · rw [Attempt.bind_error (ask_error hp)]
    exact ⟨_, .error f, .one _ hp, .stuck f, rfl⟩
  rw [Attempt.bind_ok (ask_ok hp)]
  obtain ⟨t, ht, htime⟩ := timeLeft_cases hc deadline (p.asked (.pause (.num retryInterval)) st)
  have hread := (Page.Tells.one _ hp).trans (.reading ht (.nothing _))
  obtain ⟨e, hl, htime⟩ | ⟨l, hl, htime⟩ := htime
  · rw [htime]
    exact ⟨_, .error (.number e), hread, .uncounted hl, rfl⟩
  · rw [htime]
    exact ⟨_, .ok l, hread, .counted hl, rfl⟩

theorem round_tells (anchor verb : String) (act : Number → PageCall) (deadline : ι)
    (hc : p.page.TellsTime) (left : Int) (st : State σ) :
    ∃ hs, p.page.Tells st.scene.page hs (p.round anchor verb act deadline left st).2.scene.page ∧
      Round p.timing (selectorOf anchor) act deadline left hs
        (p.round anchor verb act deadline left st).1 := by
  unfold round
  by_cases h : left ≤ 0
  · rw [if_pos h]
    exact ⟨[], .nothing _, .late h⟩
  have h₀ := not_le.mp h
  rw [if_neg h, onFault_apply, Attempt.bind_apply]
  obtain ⟨hs, r, htells, htried, hr⟩ := tryOnce_tells anchor act deadline hc left st
  rcases htry : p.tryOnce anchor act deadline left st with ⟨x, st₁⟩
  rw [htry] at htells hr
  cases r with
  | ok b =>
    cases hr
    exact ⟨hs, htells, .done h₀ htried⟩
  | error f =>
    cases hr
    change ∃ hs, p.page.Tells _ hs (p.recover anchor verb deadline f st₁).2.scene.page ∧
      Round _ _ _ _ left hs (p.recover anchor verb deadline f st₁).1
    unfold recover
    cases ht : f.isTimeout with
    | true => exact ⟨hs, htells, .timeout h₀ htried ht⟩
    | false =>
    cases hb : f.isBrowser with
    | false => exact ⟨hs, htells, .foreign h₀ htried hb⟩
    | true =>
    cases hm : isTransient f with
    | false => exact ⟨hs, htells, .lasting h₀ htried hb ht _⟩
    | true =>
    simp only [Bool.not_true, Bool.false_eq_true, if_false]
    have hlog (m : String) : ∃ st₂, (log .debug m : Play Stop σ Unit) st₁ = (.ok (), st₂) ∧
        st₁.scene.page = st₂.scene.page := ⟨_, rfl, rfl⟩
    obtain ⟨st₂, hst, hpage⟩ :=
      hlog s!"Retrying {verb} on {anchor} after transient error: {f.firstLine}"
    obtain ⟨hs', r, htells', hbreathed, hr⟩ := breathe_tells deadline hc st₂
    dsimp only at htells
    rw [hpage] at htells
    rw [Attempt.bind_ok hst, Attempt.bind_apply]
    rcases hbreathe : p.breathe deadline st₂ with ⟨x, st₃⟩
    rw [hbreathe] at htells' hr
    cases r with
    | error g =>
      cases hr
      exact ⟨_, htells.trans htells', .broken h₀ htried ⟨hb, ht, hm⟩ hbreathed⟩
    | ok l =>
      cases hr
      exact ⟨_, htells.trans htells', .again h₀ htried ⟨hb, ht, hm⟩ hbreathed⟩

/-- What all rounds hear, if their number does not end them. -/
theorem attempts_tells (hc : p.page.TellsTime) {tries : Nat} {left : Int} {st : State σ}
    (h : (p.attempts anchor verb act deadline tries left st).1 ≠ .ok none) :
    ∃ hs r, p.page.Tells st.scene.page hs
        (p.attempts anchor verb act deadline tries left st).2.scene.page ∧
      Rounds p.timing (selectorOf anchor) act deadline left hs r ∧
      (p.attempts anchor verb act deadline tries left st).1 = r.map some := by
  induction tries generalizing left st with
  | zero =>
    rw [attempts_zero] at h ⊢
    by_cases hl : left ≤ 0
    · rw [if_pos hl]
      exact ⟨[], .ok false, .nothing _, .settled (.late hl), rfl⟩
    · rw [if_neg hl] at h
      exact absurd rfl h
  | succ tries ih =>
    obtain ⟨hs, htells, hround⟩ := round_tells anchor verb act deadline hc left st
    rw [attempts_eq_round, Attempt.bind_apply] at h ⊢
    rcases hr : p.round anchor verb act deadline left st with ⟨e | b | l, st₁⟩
    · rw [hr] at htells hround
      exact ⟨hs, .error e, htells, .stopped hround, rfl⟩
    · rw [hr] at htells hround
      exact ⟨hs, .ok b, htells, .settled hround, rfl⟩
    · rw [hr] at htells hround h
      obtain ⟨hs', r, htells', hrounds, he⟩ := ih h
      exact ⟨_, r, htells.trans htells', .again hround hrounds, he⟩

/-- More tries change nothing that came of fewer. -/
theorem attempts_add {tries : Nat} {left : Int} {st : State σ}
    (h : (p.attempts anchor verb act deadline tries left st).1 ≠ .ok none) (more : Nat) :
    p.attempts anchor verb act deadline (tries + more) left st =
      p.attempts anchor verb act deadline tries left st := by
  induction tries generalizing left st with
  | zero =>
    rw [attempts_zero] at h ⊢
    by_cases hl : left ≤ 0
    · cases more with
      | zero => rfl
      | succ more =>
        rw [Nat.zero_add, attempts_succ, if_pos hl, if_pos hl]
        rfl
    · rw [if_neg hl] at h
      exact absurd rfl h
  | succ tries ih =>
    rw [attempts_eq_round, Attempt.bind_apply] at h
    rw [Nat.add_right_comm, attempts_eq_round, attempts_eq_round, Attempt.bind_apply,
      Attempt.bind_apply]
    rcases hr : p.round anchor verb act deadline left st with ⟨e | b | l, st₁⟩
    · rfl
    · rfl
    · rw [hr] at h
      exact ih h

/-- Tries come to an end if each round that is followed by another lowers a bound of their
number. -/
theorem attempts_ne_none {I : Int → State σ → Prop} {N : Int → Nat}
    (hlate : ∀ left, N left = 0 → left ≤ 0)
    (hagain : ∀ left st l st', I left st →
      p.round anchor verb act deadline left st = (.ok (.inr l), st') → I l st' ∧ N l < N left)
    {tries : Nat} {left : Int} {st : State σ} (hi : I left st) (h : N left ≤ tries) :
    (p.attempts anchor verb act deadline tries left st).1 ≠ .ok none := by
  induction tries generalizing left st with
  | zero =>
    rw [attempts_zero, if_pos (hlate left (by omega))]
    rintro ⟨⟩
  | succ tries ih =>
    rw [attempts_eq_round, Attempt.bind_apply]
    rcases hr : p.round anchor verb act deadline left st with ⟨e | b | l, st₁⟩
    · rintro ⟨⟩
    · rintro ⟨⟩
    · obtain ⟨hi', hless⟩ := hagain left st l st₁ hi hr
      exact ih hi' (by omega)

variable (p) in
/-- The clock goes forward while a time is counted: of two readings, the later of them behind a
pause between two tries, the later leaves less of the time. -/
def GoesForward (time : Number) : Prop :=
  ∀ deadline, p.Deadline time deadline →
    ∀ (s s' : σ) (hs : List (Heard ι)) (t t' : ι) (l l' : Int),
      p.page.Tells s (.reading t :: hs ++ [paused (.ok ()), .reading t']) s' →
      p.timing.left deadline t = .ok l → p.timing.left deadline t' = .ok l' → l' < l

/-- Where the clock goes forward there are no more tries than milliseconds. -/
theorem GoesForward.triesEnd {time : Json} {n : Number} (hn : time.asTime = .ok n)
    (hf : p.GoesForward n) (hc : p.page.TellsTime) : p.TriesEnd time := by
  intro n' deadline hn' hd anchor verb act left st st' h
  rw [hn] at hn'
  cases hn'
  obtain ⟨t, ht, ⟨e, hl, htime⟩ | ⟨l, hl, htime⟩⟩ := timeLeft_cases hc deadline st
  · rw [htime] at h
    cases h
  rw [htime] at h
  cases h
  -- the time that is left was counted from a reading that lies behind
  refine attempts_ne_none (N := Int.toNat)
    (I := fun left st => ∃ s t hs, p.page.Tells s (.reading t :: hs) st.scene.page ∧
      p.timing.left deadline t = .ok left) (fun left => Int.toNat_eq_zero.mp) ?_
    ⟨_, t, [], .reading ht (.nothing _), hl⟩ (Nat.le_add_right _ _)
  rintro left st l st' ⟨s, t, hs, htells, hleft⟩ hround
  obtain ⟨hs', htells', hr⟩ := round_tells anchor verb act deadline hc left st
  rw [hround] at htells' hr
  obtain ⟨hpos, es, t', hl', rfl⟩ := hr.exists_of_again
  have hall := htells.trans htells'
  rw [← List.append_assoc] at hall
  have hless : l < left := hf deadline hd s _ (hs ++ es) t t' left l (by simpa using hall) hleft hl'
  obtain ⟨s₁, -, h₂⟩ := hall.split
  obtain ⟨-, h₃⟩ := h₂.of_answer
  exact ⟨⟨_, t', [], h₃, hl'⟩, by omega⟩

end Player

end Walkthrough.Run
