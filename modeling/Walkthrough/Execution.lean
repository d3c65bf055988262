import Walkthrough.Run
import Walkthrough.Session
import Walkthrough.Settings
import Walkthrough.Tour.Reader
/-!
Executions: a tour is read from its document and run in a browser session of its own.
-/

namespace Walkthrough

/-- What tours are executed with. -/
structure Execution (ι σ : Type) where
  page : Page ι σ
  timing : Timing ι
  session : Session σ
  vocabulary : Vocabulary
  settings : Settings
  options : BrowserOptions := { headless := settings.headless }
  /-- Every opened route is waited for, if the app has an event for that. -/
  awaitRoutes : Bool := true
  date : String
  grace : Nat := 0

namespace Execution

variable {ι σ : Type}

def config (e : Execution ι σ) (directory : Path) : RunConfig where
  baseUrl := e.settings.baseUrl
  routes := e.vocabulary.routes
  directory := directory
  navigationTimeout := e.options.navigationTimeout
  readyEvent :=
    if e.awaitRoutes && e.vocabulary.events.contains routeReadyEvent then some routeReadyEvent
    else none
  env := some e.settings.env
  date := e.date
  grace := e.grace

def run (e : Execution ι σ) (t : Tour) (directory : Path) : Act σ Result := do
  let c := e.config directory
  Act.log .info .execution s!"Running tour {t.id} ({t.steps.length} steps) against {c.baseUrl}"
  e.session.within e.options (Run.Player.run ⟨e.page, e.timing, c⟩ t)

def execute (e : Execution ι σ) (document : Json) (directory : Path) : Act σ Result := do
  e.run (← Attempt.decided (Tour.ofJson document)) directory

end Execution

end Walkthrough
