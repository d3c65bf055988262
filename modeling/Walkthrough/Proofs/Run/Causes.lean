import Walkthrough.Proofs.Run.Interaction
import Walkthrough.Proofs.Run.Sequence
import Walkthrough.Proofs.Run.Softly
import Walkthrough.Proofs.Tour.Format
/-!
Why steps fail. The last thing that is heard of the page in a step that has what it needs decides of
which kind its failure is, wherever in the step it is heard.
-/

namespace Walkthrough

/-- The kind of failure that a fault is by itself. -/
def Fault.failureKind (f : Fault) : FailureKind := if f.isTimeout then .timeout else .error

/-- A step asks for what is not there: the path of the route that it opens, or the variable whose
value it enters. -/
def RunConfig.Lacks (config : RunConfig) (s : Step) : Prop :=
  match s.action with
  | .goto key => Route.pathOf? config.routes key = none
  | .fill _ _ _ (some name) _ => config.envValue? (.str name) = .ok none
  | _ => False

namespace Heard

variable {ι : Type}

/-- A URL was not opened: going there met a fault, or the status of an error. -/
def refusesNavigation : Heard ι → Bool
  | answer ⟨.goto .., .error _⟩ => true
  | answer ⟨.goto .., .ok (some status)⟩ => decide (400 ≤ status)
  | _ => false

theorem refusesNavigation_answer {c : PageCall}
    (hc : ∀ url state time, c ≠ .goto url state time) (r : Except Fault c.Answer) :
    (answer ⟨c, r⟩ : Heard ι).refusesNavigation = false := by
  cases c with
  | goto url state time => exact absurd rfl (hc url state time)
  | _ => rfl

/-- An element was waited for, or acted on, until the time was up. -/
inductive TimesOut (selector : String) : Heard ι → Prop
  | wait (time : Number) {f : Fault} (hf : f.isTimeout = true) :
    TimesOut selector (answer ⟨.waitVisible selector time, .error f⟩)
  | click (time : Number) {f : Fault} (hf : f.isTimeout = true) :
    TimesOut selector (answer ⟨.click selector time, .error f⟩)
  | fill (value : Json) (time : Number) {f : Fault} (hf : f.isTimeout = true) :
    TimesOut selector (answer ⟨.fill selector value time, .error f⟩)

/-- The fault that the last call was answered with, if a call was the last thing that was heard. -/
def lastFault? (hs : List (Heard ι)) : Option Fault := hs.getLast?.bind fault?

/-- Neither a reading of the clock, nor a URL that was not opened, nor a count of elements. -/
structure Plain (e : Heard ι) : Prop where
  reading : e.reading? = none
  navigation : e.refusesNavigation = false
  count : ∀ selector r, e ≠ Run.counted selector r

theorem plain_answer {c : PageCall} (hc : ∀ url state time, c ≠ .goto url state time)
    (hn : ∀ selector, c ≠ .count selector) (r : Except Fault c.Answer) :
    (answer ⟨c, r⟩ : Heard ι).Plain where
  reading := rfl
  navigation := refusesNavigation_answer hc r
  count selector r h := by
    cases h
    exact hn selector rfl

end Heard

namespace Run

variable {ι σ : Type}

/-- The kind of failure that the end of a step is recorded as. -/
def Stop.kind : Stop → FailureKind
  | failed kind _ => kind
  | raised f => f.failureKind

/-- What the end of a step is when a browser's errors fail it. -/
def Stop.guarded : Stop → Stop
  | failed kind message => failed kind message
  | raised f =>
    if f.isTimeout then failed .timeout f.firstLine
    else if f.isBrowser then failed .error f.firstLine
    else raised f

theorem guarded_eq_mapError {α : Type} (a : Play Stop σ α) (st : State σ) :
    guarded a st = ((a st).1.mapError Stop.guarded, (a st).2) := by
  rw [guarded, onFault_apply]
  rcases a st with ⟨(⟨kind, message⟩ | f) | x, st'⟩
  · rfl
  · simp only [Except.mapError, Stop.guarded]
    split_ifs <;> rfl
  · rfl

theorem Stop.kind_guarded (stop : Stop) : stop.guarded.kind = stop.kind := by
  cases stop with
  | failed kind message => rfl
  | raised f =>
    simp only [Stop.guarded]
    split_ifs with ht hb
    · simp [kind, Fault.failureKind, ht]
    · simp [kind, Fault.failureKind, ht]
    · rfl

/-- The pause before a step failed; it is the second thing that is heard of the page in the step. -/
def DelayFailed (c : Cue) (hs : List (Heard ι)) : Prop :=
  ∃ call ∈ delayCalls c, ∃ f, hs[1]? = some (.answer ⟨call, .error f⟩)

section

variable {timing : Timing ι} {selector : String} {act : Number → PageCall} {deadline : ι}
  {left : Int} {hs : List (Heard ι)}

theorem Tried.exists_timesOut (hact : ActsOn selector act) {f : Fault}
    (h : Tried timing selector act deadline left hs (.error f)) (hf : f.isTimeout = true) :
    ∃ front e, hs = front ++ [e] ∧ e.TimesOut selector := by
  cases h with
  | unseen f => exact ⟨[], _, rfl, .wait _ hf⟩
  | uncounted he => cases hf
  | refused hl h f =>
    refine ⟨[_, _], _, rfl, ?_⟩
    obtain rfl | ⟨value, rfl⟩ := hact
    · exact .click _ hf
    · exact .fill value _ hf

/-- The rounds come to nothing only when the element was waited for or acted on until the time was
up, or when the last reading of the clock leaves no time. -/
theorem Rounds.exists_timesOut (hact : ActsOn selector act)
    (h : Rounds timing selector act deadline left hs (.ok false)) {t : ι}
    (ht : timing.left deadline t = .ok left) :
    ∃ front e, .reading t :: hs = front ++ [e] ∧ (e.TimesOut selector ∨
      ∃ t' l, e = .reading t' ∧ timing.left deadline t' = .ok l ∧ l ≤ 0) := by
  generalize hx : (Except.ok false : Except Stop Bool) = x at h
  induction h generalizing t with
  | stopped h => cases hx
  | settled h =>
    cases hx
    generalize hy : (Except.ok (Sum.inl false) : Except Stop (Bool ⊕ Int)) = y at h
    cases h with
    | late h => exact ⟨[], _, rfl, .inr ⟨t, _, rfl, ht, h⟩⟩
    | done _ hdone =>
      cases hy
      generalize hz : (Except.ok false : Except Fault Bool) = z at hdone
      cases hdone with
      | late hl h => exact ⟨[_, _], _, rfl, .inr ⟨_, _, rfl, hl, h⟩⟩
      | _ => cases hz
    | timeout _ htried hf =>
      obtain ⟨front, e, rfl, he⟩ := htried.exists_timesOut hact hf
      exact ⟨_, e, (List.cons_append ..).symm, .inl he⟩
    | _ => cases hy
  | again h _ ih =>
    -- the reading at the end of this round is the one that the next begins with
    obtain ⟨-, es, t', hl, rfl⟩ := h.exists_of_again
    obtain ⟨front, e, hfront, he⟩ := ih hl hx
    refine ⟨.reading t :: es ++ [paused (.ok ())] ++ front, e, ?_, he⟩
    rw [List.append_assoc _ front, ← hfront]
    simp

/-- Something that is heard breaks off a step: a call that is answered with a fault, or a reading of
the clock from which no time can be counted. -/
inductive Breaks : Heard ι → Stop → Prop
  | fault {e : Heard ι} {f : Fault} {stop : Stop} (hf : e.fault? = some f)
    (hk : stop.kind = f.failureKind) : Breaks e stop
  | number (t : ι) (f : NumberFault) : Breaks (.reading t) (.raised (.number f))

namespace Breaks

variable {e : Heard ι} {stop : Stop}

theorem kind (h : Breaks e stop) : stop.kind = .timeout ∨ stop.kind = .error := by
  cases h with
  | @fault _ f _ _ hk =>
    rw [hk, Fault.failureKind]
    cases f.isTimeout <;> simp
  | number t f => exact .inr rfl

theorem kind_eq_timeout_iff (h : Breaks e stop) :
    stop.kind = .timeout ↔ ∃ f, e.fault? = some f ∧ f.isTimeout = true := by
  cases h with
  | @fault _ f _ hf hk =>
    rw [hk, hf, Fault.failureKind]
    cases ht : f.isTimeout <;> simp [ht]
  | number t f =>
    refine iff_of_false ?_ (by simp [Heard.fault?])
    simp [Stop.kind, Fault.failureKind, Fault.isTimeout]

theorem kind_eq_error_iff (h : Breaks e stop) :
    stop.kind = .error ↔ (∃ f, e.fault? = some f ∧ f.isTimeout = false) ∨
      ∃ f, stop = .raised (.number f) := by
  cases h with
  | @fault _ f _ hf hk =>
    rw [hf]
    constructor
    · intro he
      rw [hk, Fault.failureKind] at he
      split_ifs at he with ht
      exact .inl ⟨f, rfl, Bool.eq_false_iff.mpr ht⟩
    · rintro (⟨g, hg, ht⟩ | ⟨n, rfl⟩)
      · cases hg
        rw [hk, Fault.failureKind, ht]
        rfl
      · rfl
  | number t f => exact iff_of_true rfl (.inr ⟨f, rfl⟩)

end Breaks

theorem Tried.breaks {f : Fault} (h : Tried timing selector act deadline left hs (.error f)) :
    ∃ front e, hs = front ++ [e] ∧ Breaks e (.raised f) := by
  cases h with
  | unseen f => exact ⟨[], _, rfl, .fault rfl rfl⟩
  | uncounted he => exact ⟨[_], _, rfl, .number _ _⟩
  | refused hl h f => exact ⟨[_, _], _, rfl, .fault rfl rfl⟩

theorem Breathed.breaks {f : Fault} (h : Breathed timing deadline hs (.error f)) :
    ∃ front e, hs = front ++ [e] ∧ Breaks e (.raised f) := by
  cases h with
  | stuck f => exact ⟨[], _, rfl, .fault rfl rfl⟩
  | uncounted he => exact ⟨[_], _, rfl, .number _ _⟩

theorem Round.breaks {stop : Stop}
    (h : Round timing selector act deadline left hs (.error stop)) :
    ∃ front e, hs = front ++ [e] ∧ Breaks e stop := by
  cases h with
  | foreign _ ht _ => exact ht.breaks
  | lasting _ ht hb hf message =>
    obtain ⟨front, e, hfront, he⟩ := ht.breaks
    refine ⟨front, e, hfront, ?_⟩
    cases he with
    | fault he hk => exact .fault he (by rw [← hk]; simp [Stop.kind, Fault.failureKind, hf])
    | number t f => cases hb
  | broken _ _ _ hb =>
    obtain ⟨front, e, rfl, he⟩ := hb.breaks
    exact ⟨_, e, (List.append_assoc ..).symm, he⟩

/-- Rounds that end a step end with what breaks it off. -/
theorem Rounds.breaks {stop : Stop}
    (h : Rounds timing selector act deadline left hs (.error stop)) :
    ∃ front e, hs = front ++ [e] ∧ Breaks e stop := by
  generalize hx : (Except.error stop : Except Stop Bool) = x at h
  induction h with
  | stopped h =>
    cases hx
    exact h.breaks
  | settled h => cases hx
  | again h _ ih =>
    obtain ⟨front, e, rfl, he⟩ := ih hx
    exact ⟨_, e, (List.append_assoc ..).symm, he⟩

end

namespace Player

variable (p : Player ι σ)

/-- The time that a step states, or else the usual one, is used up at a reading of the clock; it is
counted from the step's first reading on. -/
def UsedUp (s : Step) (hs : List (Heard ι)) (e : Heard ι) : Prop :=
  ∃ timeout ∈ s.action.patience?, ∃ start deadline t left,
    hs.findSome? Heard.reading? = some start ∧
    p.timing.after start (timeout.getD p.config.defaultTimeout) = .ok deadline ∧
    e = .reading t ∧ p.timing.left deadline t = .ok left ∧ left ≤ 0

/-- A step gives its element up: it was waited for or acted on until the time was up, or the time
for it was used up, and the last thing that is heard is how many there are of it. -/
def GivesUp (s : Step) (n : Int) (hs : List (Heard ι)) : Prop :=
  ∃ anchor ∈ s.action.anchor?, ∃ front e,
    hs = front ++ [e] ++ [counted (selectorOf anchor) (.ok n)] ∧
    (e.TimesOut (selectorOf anchor) ∨ p.UsedUp s hs e)

variable {p}

theorem UsedUp.behind {s : Step} {lead hs : List (Heard ι)} {e : Heard ι} (h : p.UsedUp s hs e)
    (hl : ∀ e ∈ lead, e.Plain) : p.UsedUp s (lead ++ hs) e := by
  obtain ⟨timeout, htimeout, start, deadline, t, left, hstart, hrest⟩ := h
  refine ⟨timeout, htimeout, start, deadline, t, left, ?_, hrest⟩
  rw [List.findSome?_append, List.findSome?_eq_none_iff.mpr fun e he => (hl e he).reading, hstart]
  rfl

theorem GivesUp.behind {s : Step} {n : Int} {lead hs : List (Heard ι)} (h : p.GivesUp s n hs)
    (hl : ∀ e ∈ lead, e.Plain) : p.GivesUp s n (lead ++ hs) := by
  obtain ⟨anchor, ha, front, e, rfl, he⟩ := h
  refine ⟨anchor, ha, lead ++ front, e, by simp only [List.append_assoc], he.imp_right ?_⟩
  exact fun h => h.behind hl

theorem GivesUp.eq_counted {s : Step} {n : Int} {front : List (Heard ι)} {e : Heard ι}
    (h : p.GivesUp s n (front ++ [e])) : ∃ selector, e = counted selector (.ok n) := by
  obtain ⟨anchor, -, front', e', hfront, -⟩ := h
  exact ⟨_, (List.append_inj' hfront rfl).2 |> List.singleton_inj.mp⟩

/-- An element that is given up is counted once. -/
theorem GivesUp.unique {s : Step} {n n' : Int} {hs : List (Heard ι)} (h : p.GivesUp s n hs)
    (h' : p.GivesUp s n' hs) : n = n' := by
  obtain ⟨anchor, -, front, e, rfl, -⟩ := h
  obtain ⟨selector, he⟩ := h'.eq_counted
  cases he
  rfl

theorem GivesUp.lastFault?_eq_none {s : Step} {n : Int} {hs : List (Heard ι)}
    (h : p.GivesUp s n hs) : Heard.lastFault? hs = none := by
  obtain ⟨anchor, -, front, e, rfl, -⟩ := h
  rw [Heard.lastFault?, List.getLast?_concat]
  rfl

end Player

/-- How a step that has what it needs comes to fail, by what is heard of the page last. -/
inductive Ended (p : Player ι σ) (s : Step) : List (Heard ι) → Stop → Prop
  | unopened (front : List (Heard ι)) {e : Heard ι} {stop : Stop}
    (hq : ∀ e ∈ front, e.refusesNavigation = false) (he : e.refusesNavigation = true)
    (hk : stop.kind = .navigation) : Ended p s (front ++ [e]) stop
  | givenUp {n : Int} {hs : List (Heard ι)} {stop : Stop}
    (hq : ∀ e ∈ hs, e.refusesNavigation = false) (h : p.GivesUp s n hs)
    (hk : stop.kind = if n = 0 then .elementNotFound else .timeout) : Ended p s hs stop
  | broken (front : List (Heard ι)) {e : Heard ι} {stop : Stop}
    (hq : ∀ e' ∈ front ++ [e], e'.refusesNavigation = false) (he : Breaks e stop) :
    Ended p s (front ++ [e]) stop

namespace Ended

variable {p : Player ι σ} {s : Step} {hs lead : List (Heard ι)} {stop : Stop}

theorem guarded (h : Ended p s hs stop) : Ended p s hs stop.guarded := by
  cases h with
  | unopened front hq he hk => exact .unopened front hq he (by rw [Stop.kind_guarded, hk])
  | givenUp hq h hk => exact .givenUp hq h (by rw [Stop.kind_guarded, hk])
  | broken front hq he =>
    refine .broken front hq ?_
    cases he with
    | fault hf hk => exact .fault hf (by rw [Stop.kind_guarded, hk])
    | number t f => exact .number t f

/-- What is heard before it does not change how a step comes to fail. -/
theorem behind (h : Ended p s hs stop) (hl : ∀ e ∈ lead, e.Plain) :
    Ended p s (lead ++ hs) stop := by
  have hquiet (hs : List (Heard ι)) (hq : ∀ e ∈ hs, e.refusesNavigation = false) :
      ∀ e ∈ lead ++ hs, e.refusesNavigation = false := by
    intro e he
    exact (List.mem_append.mp he).elim (fun he => (hl e he).navigation) (hq e)
  cases h with
  | unopened front hq he hk =>
    rw [← List.append_assoc]
    exact .unopened _ (hquiet _ hq) he hk
  | givenUp hq h hk => exact .givenUp (hquiet _ hq) (h.behind hl) hk
  | broken front hq he =>
    have hq := hquiet _ hq
    rw [← List.append_assoc] at hq ⊢
    exact .broken _ hq he

/-- A call other than for a URL that is answered with a fault. -/
theorem of_fault {c : PageCall} (hc : ∀ url state time, c ≠ .goto url state time) {f : Fault}
    (hk : stop.kind = f.failureKind) : Ended p s [.answer ⟨c, .error f⟩] stop := by
  refine .broken [] (fun e he => ?_) (.fault rfl hk)
  obtain rfl := List.mem_singleton.mp he
  exact Heard.refusesNavigation_answer hc _

theorem kind_ne_configuration (h : Ended p s hs stop) : stop.kind ≠ .configuration := by
  cases h with
  | unopened _ _ _ hk => simp [hk]
  | givenUp _ _ hk =>
    rw [hk]
    split_ifs <;> decide
  | broken _ _ he => obtain hk | hk := he.kind <;> simp [hk]

/-- A step fails over a URL exactly if one was not opened. -/
theorem kind_eq_navigation_iff (h : Ended p s hs stop) :
    stop.kind = .navigation ↔ ∃ e ∈ hs, e.refusesNavigation = true := by
  have hquiet {hs : List (Heard ι)} (hq : ∀ e ∈ hs, e.refusesNavigation = false) :
      ¬∃ e ∈ hs, e.refusesNavigation = true := by
    rintro ⟨e, he, hrefuses⟩
    rw [hq e he] at hrefuses
    cases hrefuses
  cases h with
  | @unopened front e stop hq he hk => exact ⟨fun _ => ⟨e, by simp, he⟩, fun _ => hk⟩
  | givenUp hq _ hk =>
    refine iff_of_false ?_ (hquiet hq)
    rw [hk]
    split_ifs <;> decide
  | broken _ hq he =>
    refine iff_of_false ?_ (hquiet hq)
    obtain hk | hk := he.kind <;> simp [hk]

/-- A step fails over its element exactly if it gave it up and there was none. -/
theorem kind_eq_elementNotFound_iff (h : Ended p s hs stop) :
    stop.kind = .elementNotFound ↔ p.GivesUp s 0 hs := by
  cases h with
  | unopened _ _ he hk =>
    refine iff_of_false (by simp [hk]) fun hgives => ?_
    obtain ⟨selector, rfl⟩ := hgives.eq_counted
    cases he
  | @givenUp n hs stop _ hgives hk =>
    rw [hk]
    constructor
    · intro hn
      split_ifs at hn with h0
      rwa [← h0]
    · intro h0
      rw [if_pos (hgives.unique h0)]
  | broken _ _ he =>
    refine iff_of_false (by obtain hk | hk := he.kind <;> simp [hk]) fun hgives => ?_
    obtain ⟨selector, rfl⟩ := hgives.eq_counted
    cases he with
    | fault hf _ => cases hf

/-- Unless it failed over a URL, a step fails over the time exactly if it gave up an element that
was there, or if what it was broken off by is a timeout. -/
theorem kind_eq_timeout_iff (h : Ended p s hs stop) (hn : stop.kind ≠ .navigation) :
    stop.kind = .timeout ↔ (∃ n, n ≠ 0 ∧ p.GivesUp s n hs) ∨
      ∃ f, Heard.lastFault? hs = some f ∧ f.isTimeout = true := by
  cases h with
  | unopened _ _ _ hk => exact absurd hk hn
  | @givenUp n hs stop _ hgives hk =>
    rw [hk, hgives.lastFault?_eq_none]
    by_cases h0 : n = 0
    · refine iff_of_false (by simp [h0]) ?_
      rintro (⟨m, hm, hgives'⟩ | ⟨f, hf, -⟩)
      · exact hm ((hgives'.unique hgives).trans h0)
      · cases hf
    · exact iff_of_true (if_neg h0) (.inl ⟨n, h0, hgives⟩)
  | broken _ _ he =>
    rw [he.kind_eq_timeout_iff, Heard.lastFault?, List.getLast?_concat]
    refine ⟨.inr, ?_⟩
    rintro (⟨n, -, hgives⟩ | hf)
    · obtain ⟨selector, rfl⟩ := hgives.eq_counted
      cases he with
      | fault hf _ => cases hf
    · exact hf

/-- Unless it failed over a URL, a step fails with an error exactly if what it was broken off by is
none of a timeout. -/
theorem kind_eq_error_iff (h : Ended p s hs stop) (hn : stop.kind ≠ .navigation) :
    stop.kind = .error ↔ (∃ f, Heard.lastFault? hs = some f ∧ f.isTimeout = false) ∨
      ∃ f, stop = .raised (.number f) := by
  cases h with
  | unopened _ _ _ hk => exact absurd hk hn
  | @givenUp n hs stop _ hgives hk =>
    rw [hgives.lastFault?_eq_none]
    refine iff_of_false ?_ ?_
    · rw [hk]
      split_ifs <;> decide
    · rintro (⟨f, hf, -⟩ | ⟨f, rfl⟩)
      · cases hf
      · change FailureKind.error = _ at hk
        split_ifs at hk
  | broken _ _ he =>
    rw [he.kind_eq_error_iff, Heard.lastFault?, List.getLast?_concat]
    rfl

end Ended

end Run

end Walkthrough
