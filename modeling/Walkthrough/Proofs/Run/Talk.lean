import Walkthrough.Proofs.Crawl.Answers
import Walkthrough.Proofs.Run.Course
/-!
What a run hears of its page: answers to its calls and readings of the clock, in their order. A page
that keeps a log of all that is heard of it has nothing else in it.
-/

namespace Walkthrough

/-- What is heard of a page: an answer to a call, or a reading of its clock. -/
inductive Heard (ι : Type) where
  | answer (a : Answered)
  | reading (t : ι)

namespace Heard

variable {ι : Type}

def reading? : Heard ι → Option ι
  | answer _ => none
  | reading t => some t

/-- The fault that a call was answered with. -/
def fault? : Heard ι → Option Fault
  | answer a => faultOf? a.answer
  | reading _ => none

end Heard

namespace Page

variable {ι σ : Type} {page : Page ι σ} {s s' s'' : σ} {hs hs' : List (Heard ι)}

/-- A page comes from one state to another while all this is heard of it, in this order. -/
inductive Tells (page : Page ι σ) : σ → List (Heard ι) → σ → Prop
  | nothing (s : σ) : Tells page s [] s
  | answer {s s' : σ} {hs : List (Heard ι)} (c : PageCall)
    (h : Tells page (page.answer c s).2 hs s') :
    Tells page s (.answer ⟨c, (page.answer c s).1⟩ :: hs) s'
  | reading {s s' : σ} {hs : List (Heard ι)} {t : ι} (ht : (page.clock s).1 = .ok t)
    (h : Tells page (page.clock s).2 hs s') : Tells page s (.reading t :: hs) s'

namespace Tells

theorem trans (h : page.Tells s hs s') (h' : page.Tells s' hs' s'') :
    page.Tells s (hs ++ hs') s'' := by
  induction h with
  | nothing s => exact h'
  | answer c _ ih => exact .answer c (ih h')
  | reading ht _ ih => exact .reading ht (ih h')

/-- What is heard one after the other is heard on the way through a state between. -/
theorem split (h : page.Tells s (hs ++ hs') s'') :
    ∃ s', page.Tells s hs s' ∧ page.Tells s' hs' s'' := by
  induction hs generalizing s with
  | nil => exact ⟨s, .nothing s, h⟩
  | cons e hs ih =>
    cases h with
    | answer c h =>
      obtain ⟨s', h₁, h₂⟩ := ih h
      exact ⟨s', .answer c h₁, h₂⟩
    | reading ht h =>
      obtain ⟨s', h₁, h₂⟩ := ih h
      exact ⟨s', .reading ht h₁, h₂⟩

theorem of_answer {c : PageCall} {r : Except Fault c.Answer}
    (h : page.Tells s (.answer ⟨c, r⟩ :: hs) s') :
    (page.answer c s).1 = r ∧ page.Tells (page.answer c s).2 hs s' := by
  generalize he : Heard.answer ⟨c, r⟩ :: hs = l at h
  cases h with
  | nothing => cases he
  | answer c h =>
    cases he
    exact ⟨rfl, h⟩
  | reading => cases he

theorem of_reading {t : ι} (h : page.Tells s (.reading t :: hs) s') :
    (page.clock s).1 = .ok t ∧ page.Tells (page.clock s).2 hs s' := by
  cases h with
  | reading ht h => exact ⟨ht, h⟩

theorem one (c : PageCall) {r : Except Fault c.Answer} (h : (page.answer c s).1 = r) :
    page.Tells s [.answer ⟨c, r⟩] (page.answer c s).2 := by
  rw [← h]
  exact .answer c (.nothing _)

end Tells

/-- A page keeps a log of all that is heard of it. -/
structure Keeps (page : Page ι σ) (log : σ → List (Heard ι)) : Prop where
  answer : ∀ c s, log (page.answer c s).2 = log s ++ [.answer ⟨c, (page.answer c s).1⟩]
  clock : ∀ s t, (page.clock s).1 = .ok t → log (page.clock s).2 = log s ++ [.reading t]

/-- What is heard on the way from one state to another is what was logged. -/
theorem Tells.log {log : σ → List (Heard ι)} (hl : page.Keeps log) (h : page.Tells s hs s') :
    log s' = log s ++ hs := by
  induction h with
  | nothing s => rw [List.append_nil]
  | answer c _ ih => rw [ih, hl.answer, List.append_assoc, List.singleton_append]
  | reading ht _ ih => rw [ih, hl.clock _ _ ht, List.append_assoc, List.singleton_append]

/-- The same page, which also keeps a log of all that is heard of it. -/
def listening (page : Page ι σ) : Page ι (σ × List (Heard ι)) where
  answer c s := ((page.answer c s.1).1,
    (page.answer c s.1).2, s.2 ++ [.answer ⟨c, (page.answer c s.1).1⟩])
  clock s := ((page.clock s.1).1,
    (page.clock s.1).2, s.2 ++ ((page.clock s.1).1.toOption.map Heard.reading).toList)

theorem listening_keeps (page : Page ι σ) : page.listening.Keeps Prod.snd where
  answer c s := rfl
  clock s t ht := by
    simp only [listening] at ht ⊢
    rw [ht]
    rfl

end Page

namespace Run

variable {ι σ : Type} {p : Player ι σ}

/-- The state of a run after a call. -/
def Player.asked (p : Player ι σ) (c : PageCall) (st : State σ) : State σ :=
  { st with scene := { st.scene with page := (p.page.answer c st.scene.page).2 } }

theorem ask_ok {c : PageCall} {st : State σ} {x : c.Answer}
    (h : (p.page.answer c st.scene.page).1 = .ok x) : p.ask c st = (.ok x, p.asked c st) := by
  change ((p.page.answer c st.scene.page).1.mapError Stop.raised, _) = _
  rw [h]
  rfl

theorem ask_error {c : PageCall} {st : State σ} {f : Fault}
    (h : (p.page.answer c st.scene.page).1 = .error f) :
    p.ask c st = (.error (.raised f), p.asked c st) := by
  change ((p.page.answer c st.scene.page).1.mapError Stop.raised, _) = _
  rw [h]
  rfl

/-- The time that is left is counted from a reading of the clock, if it can be counted. -/
theorem timeLeft_cases (hc : p.page.TellsTime) (deadline : ι) (st : State σ) :
    ∃ t, (p.page.clock st.scene.page).1 = .ok t ∧
      ((∃ e, p.timing.left deadline t = .error e ∧
        p.timeLeft deadline st = (.error (.raised (.number e)), p.clocked st)) ∨
      ∃ l, p.timing.left deadline t = .ok l ∧
        p.timeLeft deadline st = (.ok l, p.clocked st)) := by
  obtain ⟨t, ht, hnow⟩ := now_reading hc Stop.raised st
  have hleft : p.timeLeft deadline st =
      ((p.timing.left deadline t).mapError fun f => .raised (.number f), p.clocked st) := by
    unfold Player.timeLeft
    rw [Attempt.bind_ok hnow]
    rfl
  refine ⟨t, ht, ?_⟩
  rw [hleft]
  cases hl : p.timing.left deadline t with
  | error e => exact .inl ⟨e, rfl, rfl⟩
  | ok l => exact .inr ⟨l, rfl, rfl⟩

end Run

end Walkthrough
