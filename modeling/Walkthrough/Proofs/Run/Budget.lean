import Mathlib.Data.List.Chain
import Walkthrough.Proofs.Except
import Walkthrough.Proofs.Run.Interaction
/-!
The time for an action on an element, counted in whole milliseconds on a page whose clock goes
forward. Whatever the page answers, the rounds of the action are no more than fit between its
pauses, each wait and each action is given the time that the last reading of the clock left, and the
action goes well at most once, at the very end.
-/

namespace Walkthrough

/-- A clock that does not go back, and that a pause moves on by its time at least. A time of each
state is between the readings before it and behind it. -/
structure Page.Paced {σ : Type} (page : Page Int σ) (time : σ → Int) : Prop where
  clock : ∀ s, ∃ t, (page.clock s).1 = .ok t ∧ time s ≤ t ∧ t ≤ time (page.clock s).2
  answer : ∀ c s, time s ≤ time (page.answer c s).2
  pause : ∀ (n : Int) (s : σ), (page.answer (.pause (.num (.int n))) s).1 = .ok () →
    time s + n ≤ time (page.answer (.pause (.num (.int n))) s).2

/-- The time for which an element is waited for or acted on. -/
def PageCall.elementTime? : PageCall → Option Number
  | waitVisible _ time => some time
  | click _ time => some time
  | fill _ _ time => some time
  | _ => none

namespace Heard

variable {ι : Type}

def elementTime? : Heard ι → Option Number
  | answer a => a.call.elementTime?
  | reading _ => none

/-- A wait for an element, with which each try begins. -/
def isWait : Heard ι → Bool
  | answer ⟨.waitVisible .., _⟩ => true
  | _ => false

/-- An action on an element that went well. -/
def acted : Heard ι → Bool
  | answer ⟨.click .., .ok _⟩ => true
  | answer ⟨.fill .., .ok _⟩ => true
  | _ => false

end Heard

namespace Page.Paced

variable {σ : Type} {page : Page Int σ} {time : σ → Int} {s s' : σ} {hs : List (Heard Int)}

theorem tellsTime (hp : page.Paced time) : page.TellsTime := by
  intro s f hf
  obtain ⟨t, ht, -⟩ := hp.clock s
  rw [ht] at hf
  cases hf

theorem tells (hp : page.Paced time) (h : page.Tells s hs s') : time s ≤ time s' := by
  induction h with
  | nothing s => exact le_refl _
  | answer c _ ih => exact (hp.answer c _).trans ih
  | reading ht _ ih =>
    obtain ⟨t, -, h₁, h₂⟩ := hp.clock _
    exact (h₁.trans h₂).trans ih

theorem reading {t : Int} (hp : page.Paced time) (h : page.Tells s (.reading t :: hs) s') :
    time s ≤ t ∧ t ≤ time s' := by
  obtain ⟨ht, h⟩ := h.of_reading
  obtain ⟨t', ht', h₁, h₂⟩ := hp.clock s
  rw [ht] at ht'
  cases ht'
  exact ⟨h₁, h₂.trans (hp.tells h)⟩

/-- A page's log of what is heard of it takes no time. -/
theorem listening (hp : page.Paced time) : page.listening.Paced fun s => time s.1 where
  clock s := hp.clock s.1
  answer c s := hp.answer c s.1
  pause n s := hp.pause n s.1

end Page.Paced

namespace Run

/-- Of two things heard one after the other the first is no action that went well; and if the second
is a wait or an action, the first is a reading of the clock that leaves it its time, which is some,
until the end of the whole. -/
def InTime (deadline : Int) (e e' : Heard Int) : Prop :=
  e.acted = false ∧
    ∀ n ∈ e'.elementTime?, ∃ t, e = .reading t ∧ 0 < deadline - t ∧ n = .int (deadline - t)

/-- A call that acts on an element for a time. -/
def IsAction (act : Number → PageCall) : Prop := ∃ selector, ActsOn selector act

section

variable {selector : String} {act : Number → PageCall} {deadline left : Int}
  {hs : List (Heard Int)}

/-- An action that goes well is what comes last of a try. -/
theorem Tried.acted_iff {r : Except Fault Bool} (hact : IsAction act)
    (h : Tried .exact selector act deadline left hs r) :
    r = .ok true ↔ ∃ e ∈ hs, e.acted = true := by
  obtain ⟨s, rfl | ⟨v, rfl⟩⟩ := hact <;> cases h <;> simp [waited, Heard.acted]

theorem Tried.waits {r : Except Fault Bool} (hact : IsAction act)
    (h : Tried .exact selector act deadline left hs r) : hs.countP Heard.isWait = 1 := by
  obtain ⟨s, rfl | ⟨v, rfl⟩⟩ := hact <;> cases h <;> rfl

theorem Tried.chain {r : Except Fault Bool} (hact : IsAction act) (hl : 0 < left)
    (h : Tried .exact selector act deadline left hs r) :
    (.reading (deadline - left) :: hs).IsChain (InTime deadline) := by
  have hwait (r : Except Fault Unit) :
      InTime deadline (.reading (deadline - left)) (waited selector left r) := by
    refine ⟨rfl, fun n hn => ?_⟩
    cases hn
    exact ⟨_, rfl, by omega, by rw [Int.sub_sub_self]⟩
  have hread (t : Int) : InTime deadline (waited selector left (.ok ())) (.reading t) :=
    ⟨rfl, fun n hn => by cases hn⟩
  have hacts {t l : Int} (ht : Timing.exact.left deadline t = .ok l) (hl : 0 < l)
      (r : Except Fault (act (.int l)).Answer) :
      InTime deadline (.reading t) (.answer ⟨act (.int l), r⟩) := by
    obtain rfl : deadline - t = l := by injection ht
    refine ⟨rfl, fun n hn => ⟨t, rfl, hl, ?_⟩⟩
    obtain ⟨s, rfl | ⟨v, rfl⟩⟩ := hact <;> cases hn <;> rfl
  cases h with
  | unseen f => exact .cons_cons (hwait _) (.singleton _)
  | uncounted he => cases he
  | late ht h => exact .cons_cons (hwait _) (.cons_cons (hread _) (.singleton _))
  | refused ht h f =>
    exact .cons_cons (hwait _) (.cons_cons (hread _) (.cons_cons (hacts ht h _) (.singleton _)))
  | acted ht h x =>
    exact .cons_cons (hwait _) (.cons_cons (hread _) (.cons_cons (hacts ht h _) (.singleton _)))

theorem Breathed.quiet {r : Except Fault Int} (h : Breathed .exact deadline hs r) :
    hs.countP Heard.isWait = 0 ∧ ∀ e ∈ hs, e.acted = false := by
  cases h <;> exact ⟨rfl, by simp [paused, Heard.acted]⟩

theorem Breathed.chain {r : Except Fault Int} (h : Breathed .exact deadline hs r) {e : Heard Int}
    (he : e.acted = false) : (e :: hs).IsChain (InTime deadline) := by
  have hpause (r : Except Fault Unit) : InTime deadline e (paused r) :=
    ⟨he, fun n hn => by cases hn⟩
  have hread (t : Int) : InTime deadline (paused (.ok ())) (.reading t) :=
    ⟨rfl, fun n hn => by cases hn⟩
  cases h with
  | stuck f => exact .cons_cons (hpause _) (.singleton _)
  | uncounted ht => exact .cons_cons (hpause _) (.cons_cons (hread _) (.singleton _))
  | counted ht => exact .cons_cons (hpause _) (.cons_cons (hread _) (.singleton _))

/-- A round that is followed by another ends with the reading that leaves the other its time. -/
theorem Round.reading_of_again {l : Int}
    (h : Round .exact selector act deadline left hs (.ok (.inr l))) :
    0 < left ∧ ∃ es, hs = es ++ [paused (.ok ()), .reading (deadline - l)] := by
  obtain ⟨hpos, es, t, hl, rfl⟩ := h.exists_of_again
  obtain rfl : deadline - t = l := by injection hl
  rw [Int.sub_sub_self]
  exact ⟨hpos, es, rfl⟩

/-- Behind what holds no action that went well, anything can be heard that is no action itself. -/
theorem isChain_append {es es' : List (Heard Int)} (hne : es ≠ [])
    (h : es.IsChain (InTime deadline)) (hq : ∀ e ∈ es, e.acted = false)
    (h' : ∀ e : Heard Int, e.acted = false → (e :: es').IsChain (InTime deadline)) :
    (es ++ es').IsChain (InTime deadline) := by
  obtain ⟨front, e, rfl⟩ := (List.eq_nil_or_concat' es).resolve_left hne
  have hlast : ([e] ++ es').IsChain (InTime deadline) := h' e (hq e (by simp))
  exact h.append_overlap hlast (List.cons_ne_nil _ _)

theorem Tried.chain_append {f : Fault} {r : Except Fault Int} {hs' : List (Heard Int)}
    (hact : IsAction act) (hl : 0 < left)
    (h : Tried .exact selector act deadline left hs (.error f))
    (hb : Breathed .exact deadline hs' r) :
    (.reading (deadline - left) :: (hs ++ hs')).IsChain (InTime deadline) := by
  rw [← List.cons_append]
  refine isChain_append (List.cons_ne_nil _ _) (h.chain hact hl) (fun e he => ?_)
    fun e he => hb.chain he
  obtain rfl | he := List.mem_cons.mp he
  · rfl
  · refine Bool.not_eq_true _ |>.mp fun hacted => ?_
    cases (h.acted_iff hact).mpr ⟨e, he, hacted⟩

theorem Round.chain {r : Except Stop (Bool ⊕ Int)} (hact : IsAction act)
    (h : Round .exact selector act deadline left hs r) :
    (.reading (deadline - left) :: hs).IsChain (InTime deadline) := by
  cases h with
  | late h => exact .singleton _
  | done h ht => exact ht.chain hact h
  | timeout h ht hf => exact ht.chain hact h
  | foreign h ht hf => exact ht.chain hact h
  | lasting h ht hb hf m => exact ht.chain hact h
  | broken h ht hf hb => exact ht.chain_append hact h hb
  | again h ht hf hb => exact ht.chain_append hact h hb

theorem Round.acted_iff {r : Except Stop (Bool ⊕ Int)} (hact : IsAction act)
    (h : Round .exact selector act deadline left hs r) :
    r = .ok (.inl true) ↔ ∃ e ∈ hs, e.acted = true := by
  have hfail {hs : List (Heard Int)} {f : Fault}
      (ht : Tried .exact selector act deadline left hs (.error f)) : ¬∃ e ∈ hs, e.acted = true :=
    fun he => by cases (ht.acted_iff hact).mpr he
  have hmore {hs hs' : List (Heard Int)} {f : Fault} {r : Except Fault Int}
      (ht : Tried .exact selector act deadline left hs (.error f))
      (hb : Breathed .exact deadline hs' r) : ¬∃ e ∈ hs ++ hs', e.acted = true := by
    rintro ⟨e, he, hacted⟩
    obtain he | he := List.mem_append.mp he
    · exact hfail ht ⟨e, he, hacted⟩
    · rw [hb.quiet.2 e he] at hacted
      cases hacted
  cases h with
  | late h => simp
  | done h ht =>
    rw [← ht.acted_iff hact]
    simp
  | timeout h ht hf => simpa using hfail ht
  | foreign h ht hf => simpa using hfail ht
  | lasting h ht hb hf m => simpa using hfail ht
  | broken h ht hf hb => simpa using hmore ht hb
  | again h ht hf hb => simpa using hmore ht hb

/-- There is a wait in each round for which time is left. -/
theorem Round.waits {r : Except Stop (Bool ⊕ Int)} (hact : IsAction act)
    (h : Round .exact selector act deadline left hs r) :
    hs.countP Heard.isWait = if left ≤ 0 then 0 else 1 := by
  have hmore {hs hs' : List (Heard Int)} {f : Fault} {r : Except Fault Int}
      (ht : Tried .exact selector act deadline left hs (.error f))
      (hb : Breathed .exact deadline hs' r) : (hs ++ hs').countP Heard.isWait = 1 := by
    rw [List.countP_append, ht.waits hact, hb.quiet.1]
  cases h with
  | late h => rw [if_pos h]; rfl
  | done h ht => rw [if_neg (not_le.mpr h), ht.waits hact]
  | timeout h ht hf => rw [if_neg (not_le.mpr h), ht.waits hact]
  | foreign h ht hf => rw [if_neg (not_le.mpr h), ht.waits hact]
  | lasting h ht hb hf m => rw [if_neg (not_le.mpr h), ht.waits hact]
  | broken h ht hf hb => rw [if_neg (not_le.mpr h), hmore ht hb]
  | again h ht hf hb => rw [if_neg (not_le.mpr h), hmore ht hb]

/-- An action ends well exactly if the action went well in one of its rounds. -/
theorem Rounds.acted_iff {r : Except Stop Bool} (hact : IsAction act)
    (h : Rounds .exact selector act deadline left hs r) :
    r = .ok true ↔ ∃ e ∈ hs, e.acted = true := by
  induction h with
  | stopped h =>
    rw [← h.acted_iff hact]
    simp
  | settled h =>
    rw [← h.acted_iff hact]
    simp
  | again h _ ih =>
    have hquiet := (h.acted_iff hact).not.mp (by simp)
    rw [ih]
    simp only [List.mem_append, or_and_right, exists_or, hquiet, false_or]

/-- Each wait and each action of the rounds is in time, and one that goes well is the last. -/
theorem Rounds.chain {r : Except Stop Bool} (hact : IsAction act)
    (h : Rounds .exact selector act deadline left hs r) :
    (.reading (deadline - left) :: hs).IsChain (InTime deadline) := by
  induction h with
  | stopped h => exact h.chain hact
  | settled h => exact h.chain hact
  | @again left l hs hs' r h _ ih =>
    have hchain := h.chain hact
    obtain ⟨-, es, hes⟩ := h.reading_of_again
    have hsplit : Heard.reading (deadline - left) :: hs =
        (Heard.reading (deadline - left) :: (es ++ [paused (.ok ())])) ++
          [Heard.reading (deadline - l)] := by
      simp [hes]
    have hnext : ([Heard.reading (deadline - l)] ++ hs').IsChain (InTime deadline) := ih
    rw [← List.cons_append, hsplit]
    rw [hsplit] at hchain
    exact hchain.append_overlap hnext (List.cons_ne_nil _ _)

section

variable {σ : Type} {page : Page Int σ} {time : σ → Int} {s s' : σ}

/-- A round that is followed by another takes as long as the pause between them. -/
theorem Round.left_of_again {l : Int} (hp : page.Paced time)
    (h : Round .exact selector act deadline left hs (.ok (.inr l))) (ht : page.Tells s hs s')
    (hleft : deadline - left ≤ time s) :
    0 < left ∧ l ≤ left - 200 ∧ deadline - l ≤ time s' := by
  obtain ⟨hpos, es, rfl⟩ := h.reading_of_again
  obtain ⟨s₁, h₁, h₂⟩ := ht.split
  obtain ⟨hpause, h₃⟩ := h₂.of_answer
  have hread : time (page.answer (.pause (.num (.int 200))) s₁).2 ≤ deadline - l ∧
      deadline - l ≤ time s' := hp.reading h₃
  have hstep := hp.pause 200 s₁ hpause
  have htime := hp.tells h₁
  exact ⟨hpos, by omega, by omega⟩

/-- There are no more tries than fit between the pauses. -/
theorem Rounds.waits {r : Except Stop Bool} (hp : page.Paced time) (hact : IsAction act)
    (h : Rounds .exact selector act deadline left hs r) (ht : page.Tells s hs s')
    (hleft : deadline - left ≤ time s) :
    200 * (hs.countP Heard.isWait : Int) < max left 0 + 200 := by
  induction h generalizing s with
  | stopped h =>
    rw [h.waits hact]
    split_ifs <;> omega
  | settled h =>
    rw [h.waits hact]
    split_ifs <;> omega
  | again h _ ih =>
    obtain ⟨s₁, h₁, h₂⟩ := ht.split
    obtain ⟨-, hl, htime⟩ := h.left_of_again hp h₁ hleft
    have hrest := ih h₂ htime
    rw [List.countP_append, h.waits hact]
    split_ifs <;> omega

end

end

section

variable {σ : Type} {page : Page Int σ} {time : σ → Int} {s s' : σ} {selector : String}
  {act : Number → PageCall} {timeout : Json} {n : Number} {whole : Int} {hs : List (Heard Int)}

/-- The rounds behind the two readings with which the time begins. -/
theorem Rounds.in_time {start t left : Int} {r : Except Stop Bool} (hp : page.Paced time)
    (hact : IsAction act) (hpos : 0 < whole)
    (ht : page.Tells s ([.reading start, .reading t] ++ hs) s')
    (hl : Timing.exact.left (start + whole) t = .ok left)
    (h : Rounds .exact selector act (start + whole) left hs r) :
    (hs.countP Heard.isWait : Int) ≤ (whole + 199) / 200 ∧
      ([Heard.reading start, .reading t] ++ hs).IsChain (InTime (start + whole)) := by
  obtain rfl : start + whole - t = left := by injection hl
  obtain ⟨hclock, ht⟩ := ht.of_reading
  obtain ⟨hclock', h₂⟩ := ht.of_reading
  have hstart := hp.reading (.reading hclock (.nothing _))
  have hread := hp.reading (.reading hclock' (.nothing _))
  have hwaits := h.waits hp hact h₂ (by omega)
  have hchain := h.chain hact
  rw [Int.sub_sub_self] at hchain
  exact ⟨by omega, .cons_cons ⟨rfl, fun n hn => by cases hn⟩ hchain⟩

theorem GaveUp.chain {e : Stop} {deadline : Int} (h : GaveUp selector hs e) {e' : Heard Int}
    (he : e'.acted = false) : (e' :: hs).IsChain (InTime deadline) := by
  have hcount (r : Except Fault Int) : InTime deadline e' (counted selector r) :=
    ⟨he, fun n hn => by cases hn⟩
  cases h <;> exact .cons_cons (hcount _) (.singleton _)

theorem GaveUp.quiet {e : Stop} (h : GaveUp selector hs e) :
    hs.countP Heard.isWait = 0 ∧ ∀ e ∈ hs, e.acted = false := by
  cases h <;> exact ⟨rfl, by simp [counted, Heard.acted]⟩

/-- What an action on an element hears keeps to its time. -/
theorem Interacted.in_time {r : Except Stop Unit} (hp : page.Paced time) (hact : IsAction act)
    (hn : timeout.asTime = .ok n) (hw : n.truncate = .ok whole) (hpos : 0 < whole)
    (h : Interacted .exact selector act timeout hs r) (ht : page.Tells s hs s') :
    ∃ start hs', hs = .reading start :: hs' ∧
      (hs'.countP Heard.isWait : Int) ≤ (whole + 199) / 200 ∧
      hs.IsChain (InTime (start + whole)) ∧ (r = .ok () ↔ ∃ e ∈ hs', e.acted = true) := by
  have hafter {n' : Number} (hn' : timeout.asTime = .ok n') (start : Int) :
      Timing.exact.after start n' = .ok (start + whole) := by
    rw [hn] at hn'
    cases hn'
    simp only [Timing.exact, hw]
    rfl
  cases h with
  | untimed start he =>
    rw [hn] at he
    cases he
  | endless hn' he =>
    rw [hafter hn'] at he
    cases he
  | uncounted hn' hd he => cases he
  | acted hn' hd hl hr =>
    rw [hafter hn'] at hd
    cases hd
    obtain ⟨hwaits, hchain⟩ := hr.in_time hp hact hpos ht hl
    refine ⟨_, _, rfl, hwaits, hchain, ?_⟩
    simpa [Heard.acted] using hr.acted_iff hact
  | broken hn' hd hl hr =>
    rw [hafter hn'] at hd
    cases hd
    obtain ⟨hwaits, hchain⟩ := hr.in_time hp hact hpos ht hl
    refine ⟨_, _, rfl, hwaits, hchain, ?_⟩
    simpa [Heard.acted] using hr.acted_iff hact
  | @gaveUp start deadline t n' left hs hs' e hn' hd hl hr hg =>
    rw [hafter hn'] at hd
    cases hd
    obtain ⟨s₁, h₁, -⟩ := ht.split
    obtain ⟨hwaits, hchain⟩ := hr.in_time hp hact hpos h₁ hl
    have hquiet : ∀ e ∈ hs, e.acted = false := by
      simpa using (hr.acted_iff hact).not.mp (by simp)
    refine ⟨start, .reading t :: (hs ++ hs'), rfl, ?_,
      isChain_append (List.cons_ne_nil _ _) hchain ?_ fun e he => hg.chain he, ?_⟩
    · rw [List.countP_cons_of_neg (by simp [Heard.isWait]), List.countP_append, hg.quiet.1]
      exact hwaits
    · simpa [Heard.acted] using hquiet
    · simpa [Heard.acted, or_imp, forall_and] using ⟨hquiet, hg.quiet.2⟩

end

/-- How many tries a time leaves room for, with a pause behind each. -/
def room (left : Int) : Nat := ((left + 199) / 200).toNat

namespace Player

variable {σ : Type} {p : Player Int σ} {time : σ → Int} {anchor verb : String}
  {act : Number → PageCall} {deadline : Int}

/-- Each round that is followed by another leaves room for fewer. -/
theorem room_of_again (ht : p.timing = .exact) (hp : p.page.Paced time) {left l : Int}
    {st st' : State σ} (hleft : deadline - left ≤ time st.scene.page)
    (h : p.round anchor verb act deadline left st = (.ok (.inr l), st')) :
    deadline - l ≤ time st'.scene.page ∧ room l < room left := by
  obtain ⟨hs, htells, hround⟩ := round_tells anchor verb act deadline hp.tellsTime left st
  rw [h] at htells hround
  rw [ht] at hround
  obtain ⟨hpos, hless, htime⟩ := hround.left_of_again hp htells hleft
  refine ⟨htime, ?_⟩
  unfold room
  omega

theorem room_le_tries (p : Player Int σ) (left : Int) : room left ≤ p.tries left :=
  le_trans (by unfold room; omega) (Nat.le_add_right _ _)

theorem left_of_room_eq_zero (left : Int) (h : room left = 0) : left ≤ 0 := by
  unfold room at h
  omega

/-- The time that is left was counted from a reading that lies behind. -/
theorem time_of_timeLeft (ht : p.timing = .exact) (hp : p.page.Paced time) {left : Int}
    {st st' : State σ} (h : p.timeLeft deadline st = (.ok left, st')) :
    deadline - left ≤ time st'.scene.page := by
  obtain ⟨t, hclock, ⟨e, he, hl⟩ | ⟨l, hl, hleft⟩⟩ := timeLeft_cases hp.tellsTime deadline st
  · rw [hl] at h
    cases h
  · rw [hleft] at h
    cases h
    rw [ht] at hl
    obtain rfl : deadline - t = left := by injection hl
    have hread := hp.reading (.reading hclock (.nothing _))
    rw [Int.sub_sub_self]
    exact hread.2

/-- A clock that does not go back and is moved on by pauses goes forward. -/
theorem goesForward_of_paced (ht : p.timing = .exact) (hp : p.page.Paced time) (n : Number) :
    p.GoesForward n := by
  intro deadline _ s s' hs t t' l l' htells hl hl'
  rw [ht] at hl hl'
  obtain rfl : deadline - t = l := by injection hl
  obtain rfl : deadline - t' = l' := by injection hl'
  obtain ⟨s₁, h₁, h₂⟩ := htells.split
  obtain ⟨hpause, h₃⟩ := h₂.of_answer
  have hbefore : t ≤ time s₁ := (hp.reading h₁).2
  have hstep := hp.pause 200 s₁ hpause
  have hbehind : time (p.page.answer (.pause (.num (.int 200))) s₁).2 ≤ t' := (hp.reading h₃).1
  omega

/-- More tries than there is room for change nothing. -/
theorem attempts_of_room (ht : p.timing = .exact) (hp : p.page.Paced time) {left : Int}
    {st : State σ} (hleft : deadline - left ≤ time st.scene.page) {tries : Nat}
    (h : room left ≤ tries) :
    p.attempts anchor verb act deadline tries left st =
      p.attempts anchor verb act deadline (room left) left st := by
  obtain ⟨more, rfl⟩ := Nat.exists_eq_add_of_le h
  exact attempts_add (attempts_ne_none (I := fun left st => deadline - left ≤ time st.scene.page)
    left_of_room_eq_zero (fun left st l st' => room_of_again ht hp) hleft (le_refl _)) more

/-- An action on an element, for a time of its own or the usual one, on a page whose clock goes
forward. Each wait and each action is given what is left of the time at the reading of the clock
right before it, an action that goes well is the last that is heard, there are no more tries than
the time leaves room for, it ends well exactly if the action went well, and no number of tries ends
it. -/
theorem interact_in_time (ht : p.timing = .exact) (hp : p.page.Paced time) (hact : IsAction act)
    {timeout : Option Json} {n : Number} {whole : Int}
    (hn : (timeout.getD (.num p.config.defaultTimeout)).asTime = .ok n)
    (hw : n.truncate = .ok whole) (hpos : 0 < whole) (anchor verb : String) (st : State σ) :
    ∃ start hs,
      p.page.Tells st.scene.page (.reading start :: hs)
        (p.interact anchor verb act timeout st).2.scene.page ∧
      (∀ a, .answer a ∈ hs → Handles (selectorOf anchor) act a.call) ∧
      (hs.countP Heard.isWait : Int) ≤ (whole + 199) / 200 ∧
      (.reading start :: hs).IsChain (InTime (start + whole)) ∧
      ((p.interact anchor verb act timeout st).1 = .ok () ↔ ∃ e ∈ hs, e.acted = true) ∧
      ∀ tries : Nat, (whole + 199) / 200 ≤ (tries : Int) →
        p.interactWithin (fun _ => tries) anchor verb act timeout st =
          p.interact anchor verb act timeout st := by
  have hends := (goesForward_of_paced ht hp n).triesEnd hn hp.tellsTime
  obtain ⟨hs, htells, hheard⟩ := interact_tells hp.tellsTime hends anchor verb act st
  have hcalls := hheard.handles
  rw [ht] at hheard
  obtain ⟨start, hs, rfl, hwaits, hchain, hacted⟩ := hheard.in_time hp hact hn hw hpos htells
  refine ⟨start, hs, htells, fun a ha => hcalls a (List.mem_cons_of_mem _ ha), hwaits, hchain,
    hacted, fun tries htries => ?_⟩
  obtain ⟨hclock, -⟩ := htells.of_reading
  obtain ⟨start', hclock', hstart⟩ := now_reading hp.tellsTime Stop.raised st
  rw [hclock] at hclock'
  cases hclock'
  have hd : p.timing.after start n = .ok (start + whole) := by
    simp only [ht, Timing.exact, hw]
    rfl
  rw [interact_eq_interactWithin, interactWithin_apply hstart hn hd,
    interactWithin_apply hstart hn hd]
  obtain ⟨t, hclock', ⟨e, hl, htime⟩ | ⟨left, hl, htime⟩⟩ :=
    timeLeft_cases hp.tellsTime (start + whole) (p.clocked st)
  · rw [Attempt.bind_error htime, Attempt.bind_error htime]
  · have hleft := time_of_timeLeft ht hp htime
    have hroom : room left ≤ tries := by
      rw [ht] at hl
      obtain rfl : start + whole - t = left := by injection hl
      have hfirst : start ≤ time (p.clocked st).scene.page :=
        (hp.reading (.reading hclock (.nothing _))).2
      have hsecond := (hp.reading (.reading hclock' (.nothing _))).1
      unfold room
      omega
    rw [Attempt.bind_ok htime, Attempt.bind_ok htime]
    unfold tryOut
    rw [Attempt.bind_apply, Attempt.bind_apply, attempts_of_room ht hp hleft hroom,
      attempts_of_room ht hp hleft (room_le_tries p left)]

end Player

end Run

namespace Page

/-- What a call takes of the time of a page on which nothing takes long but pauses. -/
def costOf : PageCall → Int
  | .pause (.num (.int n)) => max n 0
  | _ => 30

theorem costOf_nonneg (c : PageCall) : 0 ≤ costOf c := by
  unfold costOf
  split <;> omega

/-- A page that refuses its first clicks with some errors. -/
def faltering : Page Int (Int × List Fault) where
  answer c s :=
    (match c, s.2 with
      | .click .., f :: _ => .error f
      | c, _ => .ok (plainAnswer c), s.1 + costOf c,
      match c with
      | .click .. => s.2.tail
      | _ => s.2)
  clock s := (.ok s.1, s)

theorem faltering_paced : faltering.Paced Prod.fst where
  clock s := ⟨s.1, rfl, le_refl _, le_refl _⟩
  answer c _ := Int.le_add_of_nonneg_right (costOf_nonneg c)
  pause n s _ := add_le_add_right (le_max_left n 0) s.1

/-- The time that calls take. -/
def timeOf : List Called → Int
  | [] => 0
  | c :: cs => costOf c.call + timeOf cs

theorem timeOf_concat (cs : List Called) (c : Called) :
    timeOf (cs ++ [c]) = timeOf cs + costOf c.call := by
  induction cs with
  | nil => simp [timeOf]
  | cons d cs ih => simp only [List.cons_append, timeOf, ih, Int.add_assoc]

/-- A page that refuses some calls and keeps a log of all of them, each of which takes its time. -/
def working (refuse : PageCall → Option Fault) : Page Int (List Called) where
  answer := (refusing refuse (0 : Int)).answer
  clock s := (.ok (timeOf s), s)

theorem working_paced (refuse : PageCall → Option Fault) : (working refuse).Paced timeOf where
  clock s := ⟨timeOf s, rfl, le_refl _, le_refl _⟩
  answer c s := by
    change timeOf s ≤ timeOf (s ++ [⟨c, refuse c⟩])
    rw [timeOf_concat]
    exact Int.le_add_of_nonneg_right (costOf_nonneg c)
  pause n s _ := by
    change timeOf s + n ≤ timeOf (s ++ [⟨.pause (.num (.int n)), _⟩])
    rw [timeOf_concat]
    exact add_le_add_right (le_max_left n 0) (timeOf s)

theorem working_logs (refuse : PageCall → Option Fault) : (working refuse).Logs id where
  answer := (refusing_logs refuse (0 : Int)).answer
  clock _ := rfl

end Page

namespace Run.Player

/-- Two errors that may pass, and the time to try again behind each. -/
theorem interact_in_time_detached :
    let p : Player Int (Int × List Fault) := ⟨.faltering, .exact,
      { baseUrl := "http://app.test", routes := [], directory := "run", date := "2026-01-01" }⟩
    let detached : Fault := .page .browser "Element is detached from the DOM"
    let st : State (Int × List Fault) :=
      { scene := { page := (0, [detached, detached]) }, result := { tourId := "demo" } }
    let act := PageCall.click (selectorOf "tour.a.b.c")
    ∃ start hs, p.page.Tells (0, [detached, detached]) (.reading start :: hs)
        (p.interact "tour.a.b.c" "click" act (some (.num (.int 900))) st).2.scene.page ∧
      (hs.countP Heard.isWait : Int) ≤ 5 ∧ (∃ e ∈ hs, e.acted = true) ∧
      (.reading start :: hs).IsChain (InTime (start + 900)) := by
  intro p detached st act
  have hn : ((some (.num (.int 900)) : Option Json).getD (.num p.config.defaultTimeout)).asTime =
      .ok (.int 900) := rfl
  have hact : IsAction act := ⟨_, .inl rfl⟩
  obtain ⟨start, hs, htells, -, hwaits, hchain, hends, -⟩ :=
    interact_in_time (p := p) rfl Page.faltering_paced hact hn rfl (by decide) "tour.a.b.c" "click"
      st
  exact ⟨start, hs, htells, hwaits, hends.mp (ok_of_toOption (by decide +kernel)), hchain⟩

end Run.Player

end Walkthrough
