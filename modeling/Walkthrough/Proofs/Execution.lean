import Walkthrough.Execution
import Walkthrough.Proofs.Run.Calls
import Walkthrough.Proofs.Session
import Walkthrough.Proofs.Tour.Format
/-!
Executions and their sessions: nothing is opened for a document that is no tour, nothing is written
before the session is open, and a session that was opened is closed once, after all calls of its
page, however the run in it ends.
-/

namespace Walkthrough

open Run (Calls)

variable {ι σ : Type}

/-- What is to be seen of an execution: its session is entered, its page is called, and its session
is left. -/
inductive Event where
  | entered
  | called (c : Called)
  | left

/-- A page that keeps a log of events has logged the calls that lead from one state to another. -/
theorem Page.Leads.events {page : Page ι σ} {log : σ → List Event}
    (hanswer : ∀ c s,
      log (page.answer c s).2 = log s ++ [.called ⟨c, faultOf? (page.answer c s).1⟩])
    (hclock : ∀ s, log (page.clock s).2 = log s) {s s' : σ} {cs : List Called}
    (h : page.Leads s cs s') : log s' = log s ++ cs.map .called := by
  induction h with
  | here s => simp
  | call c _ ih => rw [ih, hanswer, List.append_assoc, List.map_cons, List.singleton_append]
  | clock _ ih => rw [ih, hclock]

/-- Whatever a tour holds, a run comes from one state of its page to another by calls. -/
theorem Run.Player.run_leads (p : Player ι σ) (t : Tour) (sc : Scene σ) :
    ∃ calls, p.page.Leads sc.page calls (p.run t sc).2.page := by
  have hplay : Calls p (fun _ => True) (p.play t.id t.cues) := by
    exact .play trivial fun index c _ => .playCue fun _ _ _ _ => trivial
  obtain ⟨calls, hleads, -⟩ := hplay (.fresh t.id sc)
  exact ⟨calls, hleads⟩

namespace Execution

/-- What an execution does in its session. -/
def play (e : Execution ι σ) (t : Tour) (directory : Path) : Act σ Result :=
  Run.Player.run ⟨e.page, e.timing, e.config directory⟩ t

/-- The scene in which an execution turns to its session. -/
def announced (e : Execution ι σ) (t : Tour) (directory : Path) (sc : Scene σ) : Scene σ :=
  { sc with journal := sc.journal ++ [⟨.info, .execution,
    s!"Running tour {t.id} ({t.steps.length} steps) against {(e.config directory).baseUrl}"⟩] }

/-- What comes of opening the session of an execution. -/
def opened (e : Execution ι σ) (t : Tour) (directory : Path) (sc : Scene σ) :
    Except Fault Unit × Scene σ := e.session.opening e.options (e.announced t directory sc)

/-- The session of an execution is entered: there is a tour, and the session can be opened. -/
def Enters (e : Execution ι σ) (document : Json) (directory : Path) (sc : Scene σ) : Prop :=
  ∃ t, Tour.ofJson document = .ok t ∧ (e.opened t directory sc).1 = .ok ()

/-- The page and the session of an execution keep one log. A session that could not be opened was
not entered; one that could not be closed was left all the same. -/
structure Logs (e : Execution ι σ) (log : σ → List Event) : Prop where
  answer : ∀ c s,
    log (e.page.answer c s).2 = log s ++ [.called ⟨c, faultOf? (e.page.answer c s).1⟩]
  clock : ∀ s, log (e.page.clock s).2 = log s
  entered : ∀ sc, (e.session.opening e.options sc).1 = .ok () →
    log (e.session.opening e.options sc).2.page = log sc.page ++ [.entered]
  refused : ∀ sc f, (e.session.opening e.options sc).1 = .error f →
    log (e.session.opening e.options sc).2.page = log sc.page
  left : ∀ sc, log (e.session.closing sc).2.page = log sc.page ++ [.left]

variable {e : Execution ι σ} {document : Json} {directory : Path} {sc : Scene σ} {t : Tour}

theorem execute_of_error {f : Fault} (h : Tour.ofJson document = .error f) :
    e.execute document directory sc = (.error f, sc) := by
  unfold execute
  rw [Attempt.bind_apply]
  unfold Attempt.decided
  rw [h]

theorem execute_of_ok (h : Tour.ofJson document = .ok t) :
    e.execute document directory sc = match e.opened t directory sc with
      | (.error f, sc₁) => (.error f, sc₁)
      | (.ok (), sc₁) => (e.play t directory).thenAlways e.session.closing sc₁ := by
  have hread : (Attempt.decided (Tour.ofJson document) : Act σ Tour) sc = (.ok t, sc) := by
    rw [h]
    rfl
  unfold execute
  rw [Attempt.bind_ok hread]
  change (e.session.within e.options (e.play t directory)) (e.announced t directory sc) = _
  unfold Session.within opened
  rw [Attempt.bind_apply]
  rcases e.session.opening e.options (e.announced t directory sc) with ⟨f | ⟨⟩, sc₁⟩
  · rfl
  · rfl

theorem opened_of_execute (h : Tour.ofJson document = .ok t) {f : Fault}
    (ho : (e.opened t directory sc).1 = .error f) :
    e.execute document directory sc = (.error f, (e.opened t directory sc).2) := by
  rw [execute_of_ok h]
  rcases hopen : e.opened t directory sc with ⟨g | ⟨⟩, sc₁⟩
  · rw [hopen] at ho
    cases ho
    rfl
  · rw [hopen] at ho
    cases ho

/-- What is done in an open session is done before it is closed, and counts unless closing fails. -/
theorem execute_of_opened (h : Tour.ofJson document = .ok t)
    (ho : (e.opened t directory sc).1 = .ok ()) :
    (e.execute document directory sc).2 =
        (e.session.closing (e.play t directory (e.opened t directory sc).2).2).2 ∧
      (e.execute document directory sc).1 =
        (e.session.closing (e.play t directory (e.opened t directory sc).2).2).1.bind fun _ =>
          (e.play t directory (e.opened t directory sc).2).1 := by
  rw [execute_of_ok h]
  rcases hopen : e.opened t directory sc with ⟨g | ⟨⟩, sc₁⟩
  · rw [hopen] at ho
    cases ho
  · dsimp only
    rw [Attempt.thenAlways_apply]
    rcases e.session.closing (e.play t directory sc₁).2 with ⟨g | ⟨⟩, sc₂⟩
    · exact ⟨rfl, rfl⟩
    · exact ⟨rfl, rfl⟩

theorem not_enters_of_error {f : Fault} (h : Tour.ofJson document = .error f) :
    ¬e.Enters document directory sc := by
  rintro ⟨t, ht, -⟩
  rw [h] at ht
  cases ht

theorem enters_iff (h : Tour.ofJson document = .ok t) :
    e.Enters document directory sc ↔ (e.opened t directory sc).1 = .ok () := by
  constructor
  · rintro ⟨t', ht, ho⟩
    rw [h] at ht
    cases ht
    exact ho
  · intro ho
    exact ⟨t, h, ho⟩

/-- A log that the page and the session keep tells that the session was entered, then the calls of
the page, and last that the session was left; or nothing. -/
theorem Logs.execute {log : σ → List Event} (hl : e.Logs log) (document : Json) (directory : Path)
    (sc : Scene σ) :
    (¬e.Enters document directory sc →
      log (e.execute document directory sc).2.page = log sc.page) ∧
    (e.Enters document directory sc → ∃ calls : List Called,
      log (e.execute document directory sc).2.page =
        log sc.page ++ .entered :: calls.map .called ++ [.left]) := by
  obtain ⟨c, -, hc⟩ | ⟨t, -, ht⟩ := Tour.ofJson_cases document
  · have hno : ¬e.Enters document directory sc := not_enters_of_error hc
    refine ⟨fun _ => ?_, fun h => absurd h hno⟩
    rw [execute_of_error hc]
  · rw [enters_iff ht]
    rcases ho : (e.opened t directory sc).1 with f | ⟨⟩
    · refine ⟨fun _ => ?_, by simp⟩
      rw [opened_of_execute ht ho]
      exact hl.refused (e.announced t directory sc) f ho
    · refine ⟨by simp, fun _ => ?_⟩
      obtain ⟨calls, hleads⟩ := Run.Player.run_leads ⟨e.page, e.timing, e.config directory⟩ t
        (e.opened t directory sc).2
      have hcalls := hleads.events hl.answer hl.clock
      have hentered : log (e.opened t directory sc).2.page = log sc.page ++ [.entered] :=
        hl.entered (e.announced t directory sc) ho
      refine ⟨calls, ?_⟩
      rw [(execute_of_opened ht ho).1, hl.left, play, hcalls, hentered]
      simp

/-- A document that is no tour is refused before anything is done. For a tour the session is opened
first: if it cannot be, nothing else is done, and the files are as the opening left them, which for
a browser's session is as they were. A session that was opened is closed exactly once, behind all
calls of its page and however the run in it ends; the execution then ends as the run did, unless
closing the session fails, whose fault then stands in place of the run's. -/
theorem execute_session (e : Execution ι σ) (document : Json) (directory : Path) (sc : Scene σ) :
    (Tour.format.accepts document = false → ¬e.Enters document directory sc ∧
      ∃ c, e.execute document directory sc = (.error (.format c), sc)) ∧
    (Tour.format.accepts document = true → ∃ t, Tour.ofJson document = .ok t ∧
      (∀ f, (e.opened t directory sc).1 = .error f →
        e.execute document directory sc = (.error f, (e.opened t directory sc).2) ∧
        ∀ b : Browser σ, e.session = b.session →
          (e.execute document directory sc).2.files = sc.files) ∧
      ((e.opened t directory sc).1 = .ok () →
        let played := e.play t directory (e.opened t directory sc).2
        let closed := e.session.closing played.2
        (e.execute document directory sc).2 = closed.2 ∧
        (closed.1 = .ok () → (e.execute document directory sc).1 = played.1) ∧
        ∀ f, closed.1 = .error f → (e.execute document directory sc).1 = .error f)) ∧
    ∀ log, e.Logs log →
      (¬e.Enters document directory sc →
        log (e.execute document directory sc).2.page = log sc.page) ∧
      (e.Enters document directory sc → ∃ calls : List Called,
        log (e.execute document directory sc).2.page =
          log sc.page ++ .entered :: calls.map .called ++ [.left]) := by
  refine ⟨fun hno => ?_, fun hyes => ?_, fun log hl => hl.execute document directory sc⟩
  · obtain ⟨c, -, hc⟩ | ⟨t, hyes, -⟩ := Tour.ofJson_cases document
    · exact ⟨not_enters_of_error hc, c, execute_of_error hc⟩
    · rw [hyes] at hno
      cases hno
  · obtain ⟨t, ht, -⟩ := Tour.exists_tour_of_accepts hyes
    refine ⟨t, ht, fun f ho => ?_, fun ho => ?_⟩
    · have hexecute := opened_of_execute ht ho
      refine ⟨hexecute, fun b hb => ?_⟩
      have hopening : Fileless (e.session.opening e.options) := by
        rw [hb]
        exact b.session_fileless.opening e.options
      rw [hexecute]
      exact hopening (e.announced t directory sc)
    · obtain ⟨hscene, hend⟩ := execute_of_opened ht ho
      refine ⟨hscene, fun hclosed => ?_, fun f hclosed => ?_⟩
      · rw [hend, hclosed]
        rfl
      · rw [hend, hclosed]
        rfl

/-- Where the run raises a fault and closing the session fails as well, the run's fault is lost. -/
theorem execute_of_closing_failed :
    let refuse : PageCall → Option Fault
      | .pause _ => some (.page .system "disk gone")
      | _ => none
    let page : Page Int (List Event) := {
      answer := fun c s => (match refuse c with
        | some f => .error f
        | none => .ok (Page.plainAnswer c), s ++ [.called ⟨c, refuse c⟩])
      clock := fun s => (.ok 0, s) }
    let session : Session (List Event) := {
      opening := fun _ sc => (.ok (), { sc with page := sc.page ++ [.entered] })
      closing := fun sc =>
        (.error (.page .value "driver gone"), { sc with page := sc.page ++ [.left] }) }
    let e : Execution Int (List Event) := {
      page := page, timing := .exact, session := session, vocabulary := ⟨[], [], "auth"⟩
      settings := .ofVariables [], date := "2026-01-01" }
    let document : Json := .obj [("tourId", .str "demo"), ("steps", .arr [.obj [
      ("type", .str "waitMs"), ("durationMs", .int 5)]])]
    let t : Tour := ⟨"demo", none, [⟨.waitMs 5, {}⟩]⟩
    let sc : Scene (List Event) := { page := [] }
    e.Logs id ∧ Tour.ofJson document = .ok t ∧ (e.opened t "run" sc).1 = .ok () ∧
      ∃ f, (e.play t "run" (e.opened t "run" sc).2).1 = .error f ∧ f.message = "disk gone" ∧
        (e.execute document "run" sc).1 ≠ .error f := by
  intro refuse page session e document t sc
  have hlogs : e.Logs id := by
    constructor
    case answer =>
      intro c s
      change s ++ [.called ⟨c, refuse c⟩] = s ++ [.called ⟨c, faultOf? (page.answer c s).1⟩]
      cases hr : refuse c <;> simp [page, hr, faultOf?]
    case clock => exact fun _ => rfl
    case entered => exact fun _ _ => rfl
    case refused => exact fun _ _ h => by cases h
    case left => exact fun _ => rfl
  have ht : Tour.ofJson document = .ok t := ok_of_toOption (by decide +kernel)
  have hplayed : (faultOf? (e.play t "run" (e.opened t "run" sc).2).1).map Fault.message =
      some "disk gone" := by decide +kernel
  have hexecuted : (faultOf? (e.execute document "run" sc).1).map Fault.message =
      some "driver gone" := by decide +kernel
  refine ⟨hlogs, ht, rfl, ?_⟩
  rcases hr : (e.play t "run" (e.opened t "run" sc).2).1 with f | r
  · rw [hr] at hplayed
    have hmessage : f.message = "disk gone" := by simpa [faultOf?] using hplayed
    refine ⟨f, rfl, hmessage, fun hsame => ?_⟩
    rw [hsame] at hexecuted
    simp [faultOf?, hmessage] at hexecuted
  · rw [hr] at hplayed
    cases hplayed

end Execution

end Walkthrough
