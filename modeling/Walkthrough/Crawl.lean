import Walkthrough.Identifier
import Walkthrough.Scan.Source
import Walkthrough.Session
import Walkthrough.Settings
import Walkthrough.TourMap
import Walkthrough.Url.Route
import Walkthrough.Vocabulary
/-!
Crawls: each route of an app is visited in one session, after a login if someone can log in. A
route that cannot be visited is skipped with a reason, and the crawl goes on.
-/

namespace Walkthrough

/-- The times that parts of a crawl may take, in milliseconds. -/
structure CrawlTimeouts where
  navigation : Number := .int 30000
  idle : Number := .int 5000
  settle : Number := .int 300
  login : Number := .int 20000
  deriving DecidableEq, Repr

/-- What a crawl is made with. -/
structure Crawl (ι σ : Type) where
  page : Page ι σ
  session : Session σ
  vocabulary : Vocabulary
  settings : Settings
  options : BrowserOptions := { headless := settings.headless }
  timeouts : CrawlTimeouts := {}
  search : Scan.Search := none
  root : Path
  directories : List String := Scan.defaultDirectories
  date : String

namespace Crawl

/-- The anchor of the login page's field for an address. -/
def emailAnchor : String := "tour.auth.form.input.email"

/-- The anchor of the login page's field for a password. -/
def passwordAnchor : String := "tour.auth.form.input.password"

def submitAnchor : String := "tour.auth.form.btn.submit"

variable {ι σ : Type}

def log (level : Level) (message : String) : Act σ Unit := Act.log level .crawler message

variable (c : Crawl ι σ)

/-- Fills in the login page and waits until the page has left it. -/
def signIn (path : String) : Act σ Unit := do
  let t := c.timeouts
  let url ← Attempt.decided (routeUrl c.settings.baseUrl path)
  let _ : Option Int ← Act.ask c.page (.goto url .loaded t.navigation)
  Act.ask c.page (.fill (selectorOf emailAnchor) (.str (c.settings.email.getD "")) t.login)
  Act.ask c.page (.fill (selectorOf passwordAnchor) (.str (c.settings.password.getD "")) t.login)
  Act.ask c.page (.click (selectorOf submitAnchor) t.login)
  Act.ask c.page (.waitForLeaving path t.login)

/-- Logs in, if someone can; without a login the crawl goes on as it is. -/
def login : Act σ Bool := do
  if !c.settings.hasCredentials then
    log .info "E2E_EMAIL/E2E_PASSWORD not set; crawling unauthenticated"
    return false
  match c.vocabulary.auth? with
  | none =>
    log .warning
      ("No '" ++ c.vocabulary.authKey ++ "' route configured; crawling unauthenticated")
    return false
  | some r =>
    match ← Attempt.outcome (c.signIn r.path) with
    | .ok () =>
      let name := c.settings.email.getD ""
      log .info s!"Logged in as {name}"
      return true
    | .error f =>
      if !f.isBrowser then throw f
      log .warning s!"Login failed, continuing unauthenticated: {f.firstLine}"
      return false

/-- Waits until the page is idle, but not for long, and then for a moment more. -/
def settle : Act σ Unit := do
  let t := c.timeouts
  match ← Attempt.outcome (Act.ask c.page (.waitForLoad .idle t.idle)) with
  | .ok _ => pure ()
  | .error f =>
    if !f.isTimeout then throw f
    log .debug s!"Network did not go idle within {t.idle}ms; continuing"
  if t.settle.isPositive then Act.ask c.page (.pause (.num t.settle))

/-- The page has been led to the login page, which is not the route's own. -/
def isLedToLogin (route : Route) : Option String → Act σ Bool
  | none => pure false
  | some path => do
    if route.path = path then return false
    let url : String ← Act.ask c.page .url
    Attempt.decided (leadsTo url path)

/-- The anchors that a route shows, or the reason to skip it. -/
def visit (auth : Option String) (loggedIn : Bool) (route : Route) :
    Act σ (Except String (List String)) := do
  let url ← Attempt.decided (routeUrl c.settings.baseUrl route.path)
  let status : Option Int ← Act.ask c.page (.goto url .loaded c.timeouts.navigation)
  c.settle
  if ← c.isLedToLogin route auth then
    let url : String ← Act.ask c.page .url
    let despite := if loggedIn then "despite login " else ""
    return .error s!"redirected to auth {despite}({url})"
  match status.filter (400 ≤ ·) with
  | some n => return .error s!"HTTP {n}"
  | none =>
    let shown : List String ← Act.ask c.page .anchors
    return .ok (Text.sortedSet shown)

def route (auth : Option String) (loggedIn : Bool) (r : Route) : Act σ MapEntry := do
  let found ← match ← Attempt.outcome (c.visit auth loggedIn r) with
    | .ok found => pure found
    | .error f => if f.isBrowser then pure (.error f.firstLine) else throw f
  match found with
  | .ok anchors =>
    log .info s!"{r.key}: {anchors.length} anchors"
    return { path := r.path, anchors := anchors }
  | .error reason =>
    log .warning s!"{r.key} skipped: {reason}"
    return { path := r.path, skipped := some reason }

/-- The entries of routes, one after the other, added to those there are. -/
def routes (auth : Option String) (loggedIn : Bool) :
    List Route → List (String × MapEntry) → Act σ (List (String × MapEntry))
  | [], entries => pure entries
  | r :: rs, entries => do
    let e ← c.route auth loggedIn r
    routes auth loggedIn rs (TourMap.putRoute entries r.key e)

def map : Act σ TourMap := do
  let found ← Scan.source c.search c.root c.directories
  let auth := c.vocabulary.auth?.map (·.path)
  let entries ← c.session.within c.options do
    let loggedIn ← c.login
    c.routes auth loggedIn c.vocabulary.routes
      [(staticKey, { path := staticPath, anchors := found })]
  return ⟨c.date, entries, c.vocabulary.events⟩

end Crawl

end Walkthrough
