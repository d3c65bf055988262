import Walkthrough.Proofs.Attempt
import Walkthrough.Scene
/-!
What an action hears of a page. An action that can be made of any page ends as the page's answers
have it end: a page that records what it answers knows all of it, and with a page that only recites
these answers the action ends in the same way.
-/

namespace Walkthrough

/-- A call of a page, and what it was answered with. -/
structure Answered where
  call : PageCall
  answer : Except Fault call.Answer

namespace Page

variable {ι σ : Type}

/-- The same page, which also records its answers. -/
def recording (page : Page ι σ) : Page ι (σ × List Answered) where
  answer call s :=
    ((page.answer call s.1).1,
      (page.answer call s.1).2, s.2 ++ [⟨call, (page.answer call s.1).1⟩])
  clock s := ((page.clock s.1).1, (page.clock s.1).2, s.2)

/-- A page that recites answers as long as they are those to the calls it is made. -/
def reciting : Page Unit (List Answered) where
  answer call
    | [] => (.error .notStarted, [])
    | a :: as => (if h : a.call = call then h ▸ a.answer else .error .notStarted, as)
  clock as := (.ok (), as)

theorem reciting_answer (call : PageCall) (r : Except Fault call.Answer) (as : List Answered) :
    reciting.answer call (⟨call, r⟩ :: as) = (r, as) := by
  simp [reciting]

end Page

/-- An action that can be made of any page. -/
abbrev Errand (α : Type) := ∀ ⦃ι σ : Type⦄, Page ι σ → Act σ α

namespace Errand

variable {α β : Type}

/-- The answers that an action hears of a page. -/
def heard (act : Errand α) {ι σ : Type} (page : Page ι σ) (s : σ) : List Answered :=
  (act page.recording { page := (s, []) }).2.page.2

/-- What comes of an action is what the answers make of it, wherever they come from. -/
def Follows (act : Errand α) : Prop :=
  ∀ ⦃ι σ : Type⦄ (page : Page ι σ) (sc : Scene σ), ∃ as : List Answered,
    (∀ log tsc, tsc.page = (sc.page, log) →
      (act page.recording tsc).1 = (act page sc).1 ∧
      (act page.recording tsc).2.page = ((act page sc).2.page, log ++ as)) ∧
    ∀ rest tsc, tsc.page = as ++ rest →
      (act Page.reciting tsc).1 = (act page sc).1 ∧ (act Page.reciting tsc).2.page = rest

namespace Follows

variable {act : Errand α} {next : α → Errand β}

/-- What asks nothing of the page hears nothing. -/
theorem quiet {r : Except Fault α}
    (h : ∀ ⦃ι σ : Type⦄ (page : Page ι σ) (sc : Scene σ),
      (act page sc).1 = r ∧ (act page sc).2.page = sc.page) : Follows act := by
  intro ι σ page sc
  obtain ⟨hr, hp⟩ := h page sc
  refine ⟨[], fun log tsc ht => ?_, fun rest tsc ht => ?_⟩
  · obtain ⟨hr', hp'⟩ := h page.recording tsc
    rw [hr, hr', hp, hp', ht, List.append_nil]
    exact ⟨rfl, rfl⟩
  · obtain ⟨hr', hp'⟩ := h Page.reciting tsc
    rw [hr, hr', hp', ht]
    exact ⟨rfl, rfl⟩

theorem decided (r : Except Fault α) : Follows fun _ _ _ => Attempt.decided r :=
  quiet fun _ _ _ _ => ⟨rfl, rfl⟩

theorem throw (f : Fault) : Follows fun _ σ _ => (throw f : Act σ α) := decided (.error f)

theorem pure (x : α) : Follows fun _ σ _ => (pure x : Act σ α) := decided (.ok x)

theorem log (level : Level) (channel : Channel) (message : String) :
    Follows fun _ _ _ => Act.log level channel message :=
  quiet fun _ _ _ _ => ⟨rfl, rfl⟩

/-- What is asked of the page is what is heard. -/
theorem ask (call : PageCall) : Follows fun _ _ page => Act.ask page call := by
  intro ι σ page sc
  refine ⟨[⟨call, (page.answer call sc.page).1⟩], fun log tsc ht => ?_, fun rest tsc ht => ?_⟩
  · simp only [Act.ask, Page.recording, ht, and_self]
  · simp only [Act.ask, ht, List.singleton_append, Page.reciting_answer, and_self]

theorem bind (ha : Follows act) (hn : ∀ x, Follows (next x)) :
    Follows fun _ _ page => act page >>= fun x => next x page := by
  intro ι σ page sc
  dsimp only
  obtain ⟨as, hrecord, hrecite⟩ := ha page sc
  rcases has : act page sc with ⟨f | x, sc'⟩
  · rw [has] at hrecord hrecite
    refine ⟨as, fun log tsc ht => ?_, fun rest tsc ht => ?_⟩
    · obtain ⟨hr, hp⟩ := hrecord log tsc ht
      rw [Attempt.bind_error has, Attempt.bind_of_error hr]
      exact ⟨rfl, hp⟩
    · obtain ⟨hr, hp⟩ := hrecite rest tsc ht
      rw [Attempt.bind_error has, Attempt.bind_of_error hr]
      exact ⟨rfl, hp⟩
  · rw [has] at hrecord hrecite
    obtain ⟨as', hrecord', hrecite'⟩ := hn x page sc'
    refine ⟨as ++ as', fun log tsc ht => ?_, fun rest tsc ht => ?_⟩
    · obtain ⟨hr, hp⟩ := hrecord log tsc ht
      rw [Attempt.bind_ok has, Attempt.bind_of_ok hr, ← List.append_assoc]
      exact hrecord' _ _ hp
    · rw [List.append_assoc] at ht
      obtain ⟨hr, hp⟩ := hrecite _ tsc ht
      rw [Attempt.bind_ok has, Attempt.bind_of_ok hr]
      exact hrecite' _ _ hp

theorem outcome (ha : Follows act) :
    Follows fun _ _ page => (Attempt.outcome (act page) : Act _ (Except Fault α)) := by
  intro ι σ page sc
  obtain ⟨as, hrecord, hrecite⟩ := ha page sc
  refine ⟨as, fun log tsc ht => ?_, fun rest tsc ht => ?_⟩
  · obtain ⟨hr, hp⟩ := hrecord log tsc ht
    exact ⟨congrArg Except.ok hr, hp⟩
  · obtain ⟨hr, hp⟩ := hrecite rest tsc ht
    exact ⟨congrArg Except.ok hr, hp⟩

end Follows

variable {act : Errand α} {ι σ κ τ : Type}

/-- An action ends with a page that records as it does without the record. -/
theorem Follows.recording (h : Follows act) (page : Page ι σ) (sc : Scene σ) :
    (act page.recording { page := (sc.page, []) }).1 = (act page sc).1 := by
  obtain ⟨as, hrecord, -⟩ := h page sc
  exact (hrecord [] { page := (sc.page, []) } rfl).1

/-- Of two pages that are heard to say the same an action makes the same. -/
theorem Follows.congr (h : Follows act) {page : Page ι σ} {page' : Page κ τ} {sc : Scene σ}
    {sc' : Scene τ} (hh : act.heard page sc.page = act.heard page' sc'.page) :
    (act page sc).1 = (act page' sc').1 := by
  obtain ⟨as, hrecord, hrecite⟩ := h page sc
  obtain ⟨as', hrecord', hrecite'⟩ := h page' sc'
  have has : as = as' := by
    have h₁ := (hrecord [] { page := (sc.page, []) } rfl).2
    have h₂ := (hrecord' [] { page := (sc'.page, []) } rfl).2
    rw [heard, heard, h₁, h₂] at hh
    exact hh
  subst has
  let told : Scene (List Answered) := { page := as ++ [] }
  rw [← (hrecite [] told rfl).1, ← (hrecite' [] told rfl).1]

end Errand

end Walkthrough
