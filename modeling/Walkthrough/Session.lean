import Walkthrough.Scene
/-!
Browser sessions: opening a driver, a browser, a context and a page, and closing what was opened.
-/

namespace Walkthrough

/-- How a browser is started. -/
structure BrowserOptions where
  headless : Bool := true
  width : Number := .int 1440
  height : Number := .int 900
  navigationTimeout : Number := .int 45000
  defaultTimeout : Number := .int 30000
  deriving DecidableEq, Repr

/-- A call that opens or closes a part of a session. -/
inductive SessionCall where
  | start
  | launch (headless : Bool)
  | newContext (width height : Number)
  | setNavigationTimeout (time : Number)
  | setDefaultTimeout (time : Number)
  | newPage
  | closeContext
  | closeBrowser
  | stop
  deriving DecidableEq, Repr

/-- A browser as something that answers the calls of a session. -/
structure Browser (σ : Type) where
  answer : SessionCall → σ → Except Fault Unit × σ

/-- A session that actions on a scene can run in. -/
structure Session (σ : Type) where
  /-- Opens the session, after which the page can be used. -/
  opening : BrowserOptions → Act σ Unit
  /-- Closes the session. -/
  closing : Act σ Unit

namespace Session

variable {σ : Type}

/-- Runs an action in an open session, which is closed however the action ends. -/
def within {α : Type} (s : Session σ) (o : BrowserOptions) (a : Act σ α) : Act σ α := do
  s.opening o
  Attempt.thenAlways a s.closing

end Session

namespace Browser

variable {σ : Type} (b : Browser σ)

def call (c : SessionCall) : Act σ Unit :=
  fun s =>
    let (r, page) := b.answer c s.page
    (r, { s with page := page })

def hold (f : Handles → Handles) : Act σ Unit := modify fun s => { s with handles := f s.handles }

def openAll (o : BrowserOptions) : Act σ Unit := do
  b.call .start
  hold fun h => { h with driver := true }
  b.call (.launch o.headless)
  hold fun h => { h with browser := true }
  b.call (.newContext o.width o.height)
  hold fun h => { h with context := true }
  b.call (.setNavigationTimeout o.navigationTimeout)
  b.call (.setDefaultTimeout o.defaultTimeout)
  b.call .newPage
  hold fun h => { h with page := true }

/-- Closes the context and the browser, as far as they are held. -/
def closeBoth : Act σ Unit := do
  if (← get).handles.context then b.call .closeContext
  if (← get).handles.browser then b.call .closeBrowser

/-- The same, with a browser's error only noted. -/
def closeQuietly : Act σ Unit := do
  match ← Attempt.outcome b.closeBoth with
  | .ok () => pure ()
  | .error f =>
    if f.isBrowser then
      Act.log .debug .session s!"Ignoring error while closing browser: {f.message}"
    else throw f

/-- Stops the driver, if it is held, and lets go of everything. -/
def release : Act σ Unit := do
  if (← get).handles.driver then b.call .stop
  hold fun _ => {}

def shutdown : Act σ Unit := Attempt.thenAlways b.closeQuietly b.release

/-- Opens a session; what was opened before a fault is closed again. -/
def opening (o : BrowserOptions) : Act σ Unit := do
  match ← Attempt.outcome (b.openAll o) with
  | .ok () =>
    Act.log .debug .session
      ("Browser session started (headless=" ++ (if o.headless then "True" else "False") ++ ")")
  | .error f =>
    b.shutdown
    throw (if f.isBrowser then .launch f.message else f)

def requirePage : Act σ Unit := do
  if !(← get).handles.page then throw .notStarted

def session : Session σ where
  opening o := do
    b.opening o
    requirePage
  closing := b.shutdown

end Browser

end Walkthrough
