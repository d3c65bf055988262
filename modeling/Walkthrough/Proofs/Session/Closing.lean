import Mathlib.Tactic.IntervalCases
import Walkthrough.Proofs.Run.Conduct
import Walkthrough.Proofs.Session
/-!
What a browser session opens it closes again, in the opposite order, wherever the opening stops and
however the calls and the action within end. The one exception is a context that fails to close: the
browser is left open then, while the driver is stopped all the same.
-/

namespace Walkthrough

/-- A call of a session, with the fault it was answered with if it was. -/
structure SessionCalled where
  call : SessionCall
  fault : Option Fault

/-- What a session opens and has to close again. -/
inductive SessionPart where
  | driver
  | browser
  | context
  deriving DecidableEq

/-- The parts, in the order in which they are opened. -/
def SessionPart.all : List SessionPart := [driver, browser, context]

namespace SessionCall

def opens? : SessionCall → Option SessionPart
  | start => some .driver
  | launch _ => some .browser
  | newContext _ _ => some .context
  | _ => none

def closes? : SessionCall → Option SessionPart
  | stop => some .driver
  | closeBrowser => some .browser
  | closeContext => some .context
  | _ => none

end SessionCall

/-- A call that was answered without a fault. -/
def SessionCalled.done (c : SessionCall) : SessionCalled := ⟨c, none⟩

/-- The parts that calls opened. -/
def partsOpened (cs : List SessionCalled) : List SessionPart :=
  cs.filterMap fun c => if c.fault.isNone then c.call.opens? else none

/-- The parts that were asked to close, with or without a fault. -/
def partsClosed (cs : List SessionCalled) : List SessionPart := cs.filterMap fun c => c.call.closes?

/-- The context was asked to close and failed to. -/
def ContextFails (cs : List SessionCalled) : Prop := ∃ f, ⟨.closeContext, some f⟩ ∈ cs

/-- The calls met no faults but errors of the browser. -/
def MildCalls (cs : List SessionCalled) : Prop := ∀ c ∈ cs, ∀ f ∈ c.fault, f.isBrowser = true

/-- What is held when a call that opens something has been answered. -/
def Handles.after (h : Handles) : SessionCall → Handles
  | .start => { h with driver := true }
  | .launch _ => { h with browser := true }
  | .newContext _ _ => { h with context := true }
  | .newPage => { h with page := true }
  | _ => h

/-- The parts that are held, in the order in which they are opened. -/
def Handles.parts (h : Handles) : List SessionPart :=
  (if h.driver then [.driver] else []) ++ (if h.browser then [.browser] else []) ++
    (if h.context then [.context] else [])

section Calls

variable {cs cs' : List SessionCalled}

@[simp] theorem partsOpened_append : partsOpened (cs ++ cs') = partsOpened cs ++ partsOpened cs' :=
  List.filterMap_append

@[simp] theorem partsClosed_append : partsClosed (cs ++ cs') = partsClosed cs ++ partsClosed cs' :=
  List.filterMap_append

theorem contextFails_append : ContextFails (cs ++ cs') ↔ ContextFails cs ∨ ContextFails cs' := by
  simp only [ContextFails, List.mem_append, exists_or]

theorem ContextFails.mem_partsClosed (h : ContextFails cs) : .context ∈ partsClosed cs := by
  obtain ⟨f, h⟩ := h
  exact List.mem_filterMap.mpr ⟨_, h, rfl⟩

theorem not_contextFails (h : partsClosed cs = []) : ¬ContextFails cs := by
  intro hf
  have hmem := hf.mem_partsClosed
  rw [h] at hmem
  cases hmem

theorem mildCalls_append : MildCalls (cs ++ cs') ↔ MildCalls cs ∧ MildCalls cs' :=
  List.forall_mem_append

theorem partsOpened_done (cs : List SessionCall) :
    partsOpened (cs.map .done) = cs.filterMap SessionCall.opens? := by
  rw [partsOpened, List.filterMap_map]
  rfl

theorem partsClosed_done (cs : List SessionCall) :
    partsClosed (cs.map .done) = cs.filterMap SessionCall.closes? := by
  rw [partsClosed, List.filterMap_map]
  rfl

end Calls

/-- What is left when actions have run one after the other, each in the session opened anew. -/
def Session.used {σ : Type} (s : Session σ) (o : BrowserOptions) (as : List (Act σ Unit))
    (sc : Scene σ) : Scene σ :=
  as.foldl (fun sc a => (s.within o a sc).2) sc

namespace Browser

variable {σ α : Type} {b : Browser σ} {log : σ → List SessionCalled}

/-- A browser keeps a log of its calls. -/
def Logs (b : Browser σ) (log : σ → List SessionCalled) : Prop :=
  ∀ c s, log (b.answer c s).2 = log s ++ [⟨c, faultOf? (b.answer c s).1⟩]

/-- The calls that open a session. -/
def openings (o : BrowserOptions) : List SessionCall :=
  [.start, .launch o.headless, .newContext o.width o.height,
    .setNavigationTimeout o.navigationTimeout, .setDefaultTimeout o.defaultTimeout, .newPage]

def openStep (b : Browser σ) (c : SessionCall) : Act σ Unit := do
  b.call c
  hold (·.after c)

theorem openAll_eq_forM (b : Browser σ) (o : BrowserOptions) :
    b.openAll o = (openings o).forM b.openStep := by
  simp only [openings, List.forM_eq_forM, List.forM_cons, List.forM_nil, openStep, bind_assoc]
  rfl

theorem openStep_cases (hl : b.Logs log) (c : SessionCall) (sc : Scene σ) :
    (∃ sc', b.openStep c sc = (.ok (), sc') ∧ log sc'.page = log sc.page ++ [.done c] ∧
      sc'.handles = sc.handles.after c) ∨
    ∃ f sc', b.openStep c sc = (.error f, sc') ∧ log sc'.page = log sc.page ++ [⟨c, some f⟩] ∧
      sc'.handles = sc.handles := by
  have h := hl c sc.page
  rcases hc : b.answer c sc.page with ⟨f | ⟨⟩, s⟩
  · rw [hc] at h
    have hcall : b.call c sc = (.error f, { sc with page := s }) := by rw [call, hc]
    exact .inr ⟨f, _, Attempt.bind_error hcall _, h, rfl⟩
  · rw [hc] at h
    have hcall : b.call c sc = (.ok (), { sc with page := s }) := by rw [call, hc]
    exact .inl ⟨_, Attempt.bind_ok hcall _, h, rfl⟩

/-- Calls that open are made one after the other, up to the first that fails. -/
theorem forM_openStep_cases (hl : b.Logs log) (cs : List SessionCall) (sc : Scene σ) :
    (∃ sc', cs.forM b.openStep sc = (.ok (), sc') ∧
      log sc'.page = log sc.page ++ cs.map .done ∧
      sc'.handles = cs.foldl Handles.after sc.handles) ∨
    ∃ before c f sc', before ++ [c] <+: cs ∧ cs.forM b.openStep sc = (.error f, sc') ∧
      log sc'.page = log sc.page ++ before.map .done ++ [⟨c, some f⟩] ∧
      sc'.handles = before.foldl Handles.after sc.handles := by
  induction cs generalizing sc with
  | nil => exact .inl ⟨sc, rfl, by simp, rfl⟩
  | cons c cs ih =>
    have hcons : (c :: cs).forM b.openStep sc = (b.openStep c >>= fun _ => cs.forM b.openStep) sc :=
      rfl
    rw [hcons]
    obtain ⟨sc', hstep, hlog, hh⟩ | ⟨f, sc', hstep, hlog, hh⟩ := openStep_cases hl c sc
    · rw [Attempt.bind_ok hstep]
      obtain ⟨sc'', hall, hlog', hh'⟩ | ⟨before, d, f, sc'', hpre, hall, hlog', hh'⟩ := ih sc'
      · refine .inl ⟨sc'', hall, ?_, ?_⟩
        · rw [hlog', hlog, List.append_assoc, List.map_cons, List.singleton_append]
        · rw [hh', hh, List.foldl_cons]
      · refine .inr ⟨c :: before, d, f, sc'', ?_, hall, ?_, ?_⟩
        · exact List.cons_prefix_cons.mpr ⟨rfl, hpre⟩
        · rw [hlog', hlog]
          simp
        · rw [hh', hh, List.foldl_cons]
    · rw [Attempt.bind_error hstep]
      refine .inr ⟨[], c, f, sc', ?_, rfl, ?_, hh⟩
      · exact List.cons_prefix_cons.mpr ⟨rfl, List.nil_prefix⟩
      · rw [hlog, List.map_nil, List.append_nil]

/-- How far the opening of a session has come: it holds what it opened, and has closed nothing. -/
structure Stage (log : σ → List SessionCalled) (sc sc' : Scene σ) (cs : List SessionCalled) :
    Prop where
  calls : log sc'.page = log sc.page ++ cs
  holds : sc'.handles.parts = partsOpened cs
  order : partsOpened cs <+: SessionPart.all
  closed : partsClosed cs = []

theorem Stage.of_same {sc sc' sc'' : Scene σ} {cs : List SessionCalled} (hs : Stage log sc sc' cs)
    (hlog : log sc''.page = log sc'.page) (hh : sc''.handles = sc'.handles) :
    Stage log sc sc'' cs := by
  obtain ⟨hcalls, hholds, horder, hclosed⟩ := hs
  rw [← hlog] at hcalls
  rw [← hh] at hholds
  exact ⟨hcalls, hholds, horder, hclosed⟩

/-- Wherever the opening stops, what the calls opened is held. -/
theorem parts_of_prefix {o : BrowserOptions} {before : List SessionCall}
    (h : before <+: openings o) :
    (before.foldl Handles.after {}).parts = before.filterMap SessionCall.opens? := by
  have hn : before.length ≤ 6 := h.length_le
  rw [List.prefix_iff_eq_take.mp h]
  generalize before.length = n at hn
  interval_cases n <;> rfl

theorem closes?_of_prefix {o : BrowserOptions} {before : List SessionCall}
    (h : before <+: openings o) : before.filterMap SessionCall.closes? = [] :=
  List.prefix_nil.mp (h.filterMap SessionCall.closes?)

theorem stage_of_prefix {o : BrowserOptions} {before : List SessionCall} {sc sc' : Scene σ}
    {last : List SessionCalled} (h : before <+: openings o)
    (hlog : log sc'.page = log sc.page ++ before.map .done ++ last)
    (hh : sc'.handles = before.foldl Handles.after {})
    (hopened : partsOpened last = []) (hclosed : partsClosed last = []) :
    Stage log sc sc' (before.map .done ++ last) where
  calls := by rw [hlog, List.append_assoc]
  holds := by
    rw [hh, parts_of_prefix h, partsOpened_append, partsOpened_done, hopened, List.append_nil]
  order := by
    rw [partsOpened_append, partsOpened_done, hopened, List.append_nil]
    exact h.filterMap SessionCall.opens?
  closed := by
    rw [partsClosed_append, partsClosed_done, hclosed, closes?_of_prefix h, List.append_nil]

/-- The opening comes to its end and holds a page, or is stopped by a fault of one of its calls. -/
theorem openAll_cases (hl : b.Logs log) (o : BrowserOptions) {sc : Scene σ}
    (hsc : sc.handles = {}) :
    ∃ cs sc', Stage log sc sc' cs ∧
      (b.openAll o sc = (.ok (), sc') ∧ sc'.handles.page = true ∨
        ∃ c f, ⟨c, some f⟩ ∈ cs ∧ b.openAll o sc = (.error f, sc')) := by
  rw [openAll_eq_forM]
  obtain ⟨sc', hrun, hlog, hh⟩ | ⟨before, c, f, sc', hpre, hrun, hlog, hh⟩ :=
    forM_openStep_cases hl (openings o) sc
  · rw [hsc] at hh
    rw [← List.append_nil (log sc.page ++ _)] at hlog
    refine ⟨_, sc', stage_of_prefix List.prefix_rfl hlog hh rfl rfl, .inl ⟨hrun, ?_⟩⟩
    rw [hh]
    rfl
  · rw [hsc] at hh
    have hclosed : partsClosed [⟨c, some f⟩] = [] := by
      have hnone := closes?_of_prefix hpre
      rw [List.filterMap_append] at hnone
      exact (List.append_eq_nil_iff.mp hnone).2
    have hbefore := (List.prefix_append before [c]).trans hpre
    exact ⟨_, sc', stage_of_prefix hbefore hlog hh rfl hclosed, .inr ⟨c, f, by simp, hrun⟩⟩

/-- A call that is made only if something is held. -/
theorem callIf_cases (hl : b.Logs log) (held : Bool) (c : SessionCall) (sc : Scene σ) :
    ∃ r sc', (if held = true then b.call c else pure ()) sc = (r, sc') ∧
      log sc'.page = log sc.page ++ (if held then [⟨c, faultOf? r⟩] else []) ∧
      (held = false → r = .ok ()) ∧ sc'.handles = sc.handles := by
  cases held with
  | true => exact ⟨_, _, rfl, hl c sc.page, nofun, rfl⟩
  | false => exact ⟨_, _, rfl, by simp, fun _ => rfl, rfl⟩

/-- How the closing of a context and a browser ends and what it calls, with these handles held. -/
inductive BothCalls (h : Handles) : Except Fault Unit → List SessionCalled → Prop
  /-- The context closes if it is held, and then the browser is asked to if it is held. -/
  | closed (r : Except Fault Unit) (hr : h.browser = false → r = .ok ()) :
    BothCalls h r ((if h.context then [.done .closeContext] else []) ++
      (if h.browser then [⟨.closeBrowser, faultOf? r⟩] else []))
  /-- The context fails to close, and the browser is not asked to. -/
  | failed (f : Fault) (hc : h.context = true) :
    BothCalls h (.error f) [⟨.closeContext, some f⟩]

/-- The call that stops a driver that is held. -/
def stopCalls (h : Handles) : List SessionCalled := if h.driver then [.done .stop] else []

/-- What calls close of the parts that are held: all of them from the last to the first, or, when
the context fails to close, all but the browser. -/
structure Closes (h : Handles) (cs : List SessionCalled) : Prop where
  opened : partsOpened cs = []
  closed : ¬ContextFails cs → partsClosed cs = h.parts.reverse
  skipped : ContextFails cs → h.context = true ∧ partsClosed cs = (h.parts.erase .browser).reverse

theorem BothCalls.mem {h : Handles} {f : Fault} {cs : List SessionCalled}
    (hb : BothCalls h (.error f) cs) : ∃ c, ⟨c, some f⟩ ∈ cs := by
  cases hb with
  | closed _ hr =>
    have hheld : h.browser = true := by
      by_contra hn
      cases hr (by simpa using hn)
    exact ⟨.closeBrowser, by simp [hheld, faultOf?]⟩
  | failed _ _ => exact ⟨.closeContext, List.mem_singleton_self _⟩

theorem BothCalls.closes {h : Handles} {r : Except Fault Unit} {cs : List SessionCalled}
    (hb : BothCalls h r cs) : Closes h (cs ++ stopCalls h) := by
  obtain ⟨driver, browser, context, page⟩ := h
  cases hb with
  | closed _ hr =>
    constructor
    case opened => cases r <;> cases driver <;> cases browser <;> cases context <;> rfl
    case closed =>
      intro _
      cases driver <;> cases browser <;> cases context <;> rfl
    case skipped =>
      rintro ⟨f, hf⟩
      cases driver <;> cases browser <;> cases context <;>
        simp [stopCalls, SessionCalled.done] at hf
  | failed f hc =>
    cases hc
    constructor
    case opened => cases driver <;> rfl
    case closed =>
      intro hn
      exact absurd ⟨f, List.mem_cons_self⟩ hn
    case skipped =>
      intro _
      exact ⟨rfl, by cases driver <;> cases browser <;> rfl⟩

theorem closeBoth_cases (hl : b.Logs log) (sc : Scene σ) :
    ∃ r sc' cs, b.closeBoth sc = (r, sc') ∧ log sc'.page = log sc.page ++ cs ∧
      sc'.handles = sc.handles ∧ BothCalls sc.handles r cs := by
  obtain ⟨r, sc', hcall, hlog, hheld, hh⟩ :=
    callIf_cases hl sc.handles.context .closeContext sc
  have hboth : b.closeBoth sc =
      ((if sc.handles.context = true then b.call .closeContext else pure ()) >>= fun _ =>
        get >>= fun sc : Scene σ =>
          if sc.handles.browser = true then b.call .closeBrowser else pure ()) sc := by
    dsimp only [closeBoth]
    rw [Attempt.bind_ok (Attempt.get_apply sc)]
    split_ifs <;> rfl
  rw [hboth]
  rcases r with f | ⟨⟩
  · -- only the closing of a context that is held can have failed
    have hcontext : sc.handles.context = true := by
      by_contra h
      cases hheld (by simpa using h)
    rw [hcontext] at hlog
    exact ⟨_, _, _, Attempt.bind_error hcall _, hlog, hh, .failed f hcontext⟩
  · rw [Attempt.bind_ok hcall]
    obtain ⟨r', sc'', hcall', hlog', hheld', hh'⟩ :=
      callIf_cases hl sc'.handles.browser .closeBrowser sc'
    rw [hh] at hlog' hh' hheld'
    rw [hlog, List.append_assoc] at hlog'
    exact ⟨_, _, _, hcall', hlog', hh', .closed r' hheld'⟩

theorem release_cases (hl : b.Logs log) (hstop : ∀ s, (b.answer .stop s).1 = .ok ())
    (sc : Scene σ) :
    ∃ sc', b.release sc = (.ok (), sc') ∧
      log sc'.page = log sc.page ++ stopCalls sc.handles ∧ sc'.handles = {} := by
  obtain ⟨r, sc', hcall, hlog, -, -⟩ := callIf_cases hl sc.handles.driver .stop sc
  have hr : r = .ok () := by
    have h : ((if sc.handles.driver = true then b.call .stop else pure ()) sc).1 = .ok () := by
      split_ifs
      · exact hstop sc.page
      · rfl
    rwa [hcall] at h
  subst hr
  have hrelease : b.release sc = ((if sc.handles.driver = true then b.call .stop else pure ()) >>=
      fun _ => hold fun _ => {}) sc := by
    dsimp only [release]
    rw [Attempt.bind_ok (Attempt.get_apply sc)]
    split_ifs <;> rfl
  rw [hrelease, Attempt.bind_ok hcall]
  exact ⟨_, rfl, hlog, rfl⟩

theorem closeQuietly_cases (hl : b.Logs log) (sc : Scene σ) :
    ∃ r r' sc' cs, b.closeQuietly sc = (r', sc') ∧ log sc'.page = log sc.page ++ cs ∧
      sc'.handles = sc.handles ∧ BothCalls sc.handles r cs ∧ (MildCalls cs → r' = .ok ()) := by
  obtain ⟨r, sc', cs, hboth, hlog, hh, hcalls⟩ := closeBoth_cases hl sc
  rw [closeQuietly, Attempt.bind_ok (Attempt.outcome_of hboth)]
  rcases r with f | ⟨⟩
  · obtain ⟨c, hc⟩ := hcalls.mem
    dsimp only
    split_ifs with hf
    · exact ⟨_, _, _, cs, rfl, hlog, hh, hcalls, fun _ => rfl⟩
    · exact ⟨_, _, _, cs, rfl, hlog, hh, hcalls, fun hm => absurd (hm _ hc f rfl) hf⟩
  · exact ⟨_, _, _, cs, rfl, hlog, hh, hcalls, fun _ => rfl⟩

/-- What is held is closed and let go, and errors of the browser do not come out. -/
theorem shutdown_cases (hl : b.Logs log) (hstop : ∀ s, (b.answer .stop s).1 = .ok ())
    (sc : Scene σ) :
    ∃ r sc' cs, b.shutdown sc = (r, sc') ∧ log sc'.page = log sc.page ++ cs ∧ sc'.handles = {} ∧
      Closes sc.handles cs ∧ (MildCalls cs → r = .ok ()) := by
  obtain ⟨_, r, sc', cs, hquiet, hlog, hh, hcalls, hr⟩ := closeQuietly_cases hl sc
  obtain ⟨sc'', hrelease, hlog', hh'⟩ := release_cases hl hstop sc'
  rw [hlog, hh, List.append_assoc] at hlog'
  have hshutdown : b.shutdown sc = (r, sc'') := by
    rw [shutdown, Attempt.thenAlways_apply, hquiet]
    dsimp only
    rw [hrelease]
  exact ⟨r, sc'', _, hshutdown, hlog', hh', hcalls.closes,
    fun hm => hr (mildCalls_append.mp hm).1⟩

/-- What a session that has ended has called: it opened parts in their order and closed them in the
opposite one, each once, but for a browser whose context failed to close. -/
structure Account (log : σ → List SessionCalled) (sc sc' : Scene σ) (cs : List SessionCalled) :
    Prop where
  calls : log sc'.page = log sc.page ++ cs
  opened : partsOpened cs <+: SessionPart.all
  closed : ¬ContextFails cs → partsClosed cs = (partsOpened cs).reverse
  skipped : ContextFails cs →
    partsOpened cs = SessionPart.all ∧ partsClosed cs = [.context, .driver]
  released : sc'.handles = {}

/-- Only when all parts are open there is a context. -/
theorem parts_eq_all {h : Handles} (hp : h.parts <+: SessionPart.all) (hc : h.context = true) :
    h.parts = SessionPart.all := by
  obtain ⟨driver, browser, context, page⟩ := h
  cases hc
  revert hp
  cases driver <;> cases browser <;> cases page <;> decide

theorem Stage.account {sc sc' sc'' : Scene σ} {cs cs' : List SessionCalled}
    (hs : Stage log sc sc' cs) (hlog : log sc''.page = log sc'.page ++ cs')
    (hc : Closes sc'.handles cs') (hh : sc''.handles = {}) : Account log sc sc'' (cs ++ cs') := by
  have hopened : partsOpened (cs ++ cs') = sc'.handles.parts := by
    rw [partsOpened_append, hc.opened, List.append_nil, hs.holds]
  have hclosed : partsClosed (cs ++ cs') = partsClosed cs' := by
    rw [partsClosed_append, hs.closed, List.nil_append]
  have hfails : ContextFails (cs ++ cs') ↔ ContextFails cs' := by
    rw [contextFails_append, or_iff_right (not_contextFails hs.closed)]
  have horder := hs.order
  rw [← hs.holds] at horder
  constructor
  case calls => rw [hlog, hs.calls, List.append_assoc]
  case opened => rwa [hopened]
  case closed =>
    intro h
    rw [hclosed, hopened, hc.closed (mt hfails.mpr h)]
  case skipped =>
    intro h
    obtain ⟨hcontext, hskipped⟩ := hc.skipped (hfails.mp h)
    have hall := parts_eq_all horder hcontext
    refine ⟨hopened.trans hall, ?_⟩
    rw [hclosed, hskipped, hall]
    rfl
  case released => exact hh

theorem requirePage_of_page {sc : Scene σ} (h : sc.handles.page = true) :
    (requirePage : Act σ Unit) sc = (.ok (), sc) := by
  rw [requirePage, Attempt.bind_ok (Attempt.get_apply sc), h]
  rfl

/-- A session is entered with a page, or raises what stopped it when all it had opened is closed. -/
theorem opening_cases (hl : b.Logs log) (hstop : ∀ s, (b.answer .stop s).1 = .ok ())
    (o : BrowserOptions) {sc : Scene σ} (hsc : sc.handles = {}) :
    ∃ cs sc', (b.session.opening o sc = (.ok (), sc') ∧ Stage log sc sc' cs ∧
        sc'.handles.page = true) ∨
      ∃ e, b.session.opening o sc = (.error e, sc') ∧ Account log sc sc' cs ∧
        (MildCalls cs → ∃ message, e = .launch message) := by
  obtain ⟨cs, sc', hs, ⟨hopen, hpage⟩ | ⟨c, f, hf, hopen⟩⟩ := openAll_cases hl o hsc
  · have hok : ∃ sc'', b.opening o sc = (.ok (), sc'') ∧ sc''.page = sc'.page ∧
        sc''.handles = sc'.handles := by
      rw [opening, Attempt.bind_ok (Attempt.outcome_of hopen)]
      exact ⟨_, rfl, rfl, rfl⟩
    obtain ⟨sc'', hopening, hp, hh⟩ := hok
    rw [← hh] at hpage
    have hentered : b.session.opening o sc = (.ok (), sc'') :=
      (Attempt.bind_ok hopening _).trans (requirePage_of_page hpage)
    exact ⟨cs, sc'', .inl ⟨hentered, hs.of_same (by rw [hp]) hh, hpage⟩⟩
  · obtain ⟨r, sc'', cs', hshut, hlog, hh, hc, hr⟩ := shutdown_cases hl hstop sc'
    have hopening : b.opening o sc = (b.shutdown >>= fun _ =>
        throw (if f.isBrowser then .launch f.message else f)) sc' := by
      rw [opening, Attempt.bind_ok (Attempt.outcome_of hopen)]
    have haccount := hs.account hlog hc hh
    rcases r with e | ⟨⟩
    · rw [Attempt.bind_error hshut] at hopening
      refine ⟨_, sc'', .inr ⟨e, Attempt.bind_error hopening _, haccount, fun hm => ?_⟩⟩
      cases hr (mildCalls_append.mp hm).2
    · have hraise : b.opening o sc =
          (.error (if f.isBrowser then .launch f.message else f), sc'') :=
        hopening.trans (Attempt.bind_ok hshut _)
      refine ⟨_, sc'', .inr ⟨_, Attempt.bind_error hraise _, haccount, fun hm => ⟨f.message, ?_⟩⟩⟩
      rw [if_pos ((mildCalls_append.mp hm).1 _ hf f rfl)]

/-- An action that leaves alone what a session holds, and calls nothing of its browser. -/
def Apart (log : σ → List SessionCalled) (a : Act σ α) : Prop :=
  ∀ sc, (a sc).2.handles = sc.handles ∧ log (a sc).2.page = log sc.page

/-- A session that is opened and closed around an action gives account of its calls. It raises what
stopped its opening, or ends as the action does. -/
theorem within_cases (hl : b.Logs log) (hstop : ∀ s, (b.answer .stop s).1 = .ok ())
    (o : BrowserOptions) {a : Act σ α} (ha : Apart log a) {sc : Scene σ} (hsc : sc.handles = {}) :
    ∃ cs, Account log sc (b.session.within o a sc).2 cs ∧ (MildCalls cs →
      (b.session.opening o sc).1 = .ok () ∧ (b.session.opening o sc).2.handles.page = true ∧
          (b.session.within o a sc).1 = (a (b.session.opening o sc).2).1 ∨
        ∃ message, (b.session.opening o sc).1 = .error (.launch message) ∧
          (b.session.within o a sc).1 = .error (.launch message)) := by
  obtain ⟨cs, sc', ⟨hopen, hs, hpage⟩ | ⟨e, hopen, haccount, hlaunch⟩⟩ :=
    opening_cases hl hstop o hsc
  · obtain ⟨hh, hlog⟩ := ha sc'
    obtain ⟨r, sc'', cs', hshut, hlog', hh', hc, hr⟩ := shutdown_cases hl hstop (a sc').2
    have hwithin : b.session.within o a sc = a.thenAlways b.shutdown sc' := Attempt.bind_ok hopen _
    have hstate : (b.session.within o a sc).2 = sc'' := by
      rw [hwithin, Attempt.thenAlways_apply, hshut]
      cases r <;> rfl
    rw [hstate, hopen]
    refine ⟨cs ++ cs', (hs.of_same hlog hh).account hlog' hc hh', fun hm => .inl ⟨rfl, hpage, ?_⟩⟩
    have hok := hr (mildCalls_append.mp hm).2
    rw [hwithin, Attempt.thenAlways_apply, hshut, hok]
  · have hwithin : b.session.within o a sc = (.error e, sc') := Attempt.bind_error hopen _
    rw [hwithin, hopen]
    refine ⟨cs, haccount, fun hm => ?_⟩
    obtain ⟨message, rfl⟩ := hlaunch hm
    exact .inr ⟨message, rfl, rfl⟩

/-- A session that has been used is as empty as a new one. -/
theorem used_handles (hl : b.Logs log) (hstop : ∀ s, (b.answer .stop s).1 = .ok ())
    (o : BrowserOptions) {as : List (Act σ Unit)} (has : ∀ a ∈ as, Apart log a) {sc : Scene σ}
    (hsc : sc.handles = {}) : (b.session.used o as sc).handles = {} := by
  induction as generalizing sc with
  | nil => exact hsc
  | cons a as ih =>
    obtain ⟨cs, haccount, -⟩ := within_cases hl hstop o (has a List.mem_cons_self) hsc
    exact ih (fun a' ha' => has a' (List.mem_cons_of_mem _ ha')) haccount.released

/-- However often a session has been used, and however its calls and the actions in it end, it
closes each part that it opened once, the last one first, if its driver can be stopped. The
exception is a context that fails to close: the browser is not closed then. Nothing is held
afterwards. If all faults are errors of the browser, the session is entered with a page or fails to
launch. -/
theorem within_closes (hl : b.Logs log) (hstop : ∀ s, (b.answer .stop s).1 = .ok ())
    (o : BrowserOptions) {before : List (Act σ Unit)} (hbefore : ∀ a ∈ before, Apart log a)
    {a : Act σ α} (ha : Apart log a) {sc : Scene σ} (hsc : sc.handles = {}) :
    let start := b.session.used o before sc
    let entered := b.session.opening o start
    let ended := b.session.within o a start
    ∃ cs, Account log start ended.2 cs ∧ (MildCalls cs →
      entered.1 = .ok () ∧ entered.2.handles.page = true ∧ ended.1 = (a entered.2).1 ∨
        ∃ message, entered.1 = .error (.launch message) ∧ ended.1 = .error (.launch message)) :=
  within_cases hl hstop o ha (used_handles hl hstop o hbefore hsc)

/-- A browser that answers a call in the same way each time, and whose state is its log, with the
latest call first. -/
def recording (answers : SessionCall → Except Fault Unit) : Browser (List SessionCalled) where
  answer c s := (answers c, ⟨c, faultOf? (answers c)⟩ :: s)

theorem logs_recording (answers : SessionCall → Except Fault Unit) :
    (recording answers).Logs List.reverse :=
  fun _ _ => List.reverse_cons

theorem apart_of_same {a : Act σ α} (h : ∀ sc, (a sc).2 = sc) : Apart log a := by
  intro sc
  rw [h]
  exact ⟨rfl, rfl⟩

theorem within_closes_crashedContext :
    let crash : Fault := .page .browser "context crashed"
    let b := recording fun c => if c = .closeContext then .error crash else .ok ()
    let failing : Act (List SessionCalled) Unit := throw (.page .timeout "no button")
    let new : Scene (List SessionCalled) := { page := [] }
    let start := b.session.used {} [failing] new
    let entered := b.session.opening {} start
    let ended := b.session.within {} (pure 7 : Act (List SessionCalled) Nat) start
    let cs := (openings {}).map .done ++ [⟨.closeContext, some crash⟩, .done .stop]
    Account List.reverse start ended.2 cs ∧ ContextFails cs ∧ MildCalls cs ∧
      (entered.1 = .ok () ∧ entered.2.handles.page = true ∧ ended.1 = .ok 7 ∨
        ∃ message, entered.1 = .error (.launch message) ∧ ended.1 = .error (.launch message)) := by
  intro crash b failing new start entered ended cs
  have hlogs : b.Logs List.reverse := logs_recording _
  have hstop : ∀ s, (b.answer .stop s).1 = .ok () := fun _ => rfl
  have hfailing : ∀ a ∈ [failing], Apart List.reverse a := by simpa using apart_of_same fun _ => rfl
  have hbody : Apart List.reverse (pure 7 : Act (List SessionCalled) Nat) :=
    apart_of_same fun _ => rfl
  obtain ⟨cs', haccount, hentered⟩ :=
    within_closes hlogs hstop {} hfailing hbody (rfl : new.handles = {})
  have hcs : cs' = cs := by
    have hended : ended.2.page = cs.reverse ++ start.page := rfl
    have hcalls : ended.2.page.reverse = start.page.reverse ++ cs' := haccount.calls
    rw [hended, List.reverse_append, List.reverse_reverse] at hcalls
    exact (List.append_cancel_left hcalls).symm
  subst hcs
  have hmild : MildCalls cs := by
    simp [MildCalls, cs, crash, openings, SessionCalled.done, Fault.isBrowser,
      PageFaultKind.isBrowser]
  exact ⟨haccount, ⟨crash, by simp [cs]⟩, hmild, hentered hmild⟩

end Browser

end Walkthrough
