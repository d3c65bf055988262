import Walkthrough.Files
import Walkthrough.Text.Sorted
/-!
The vocabulary of an app: its routes, its events, and which route is the login page.
-/

namespace Walkthrough

/-- A route of the app. -/
structure Route where
  key : String
  path : String
  deriving DecidableEq, Repr

/-- The path of a key; of routes with one key the last counts. -/
def Route.pathOf? (rs : List Route) (key : String) : Option String :=
  (rs.reverse.find? (·.key == key)).map (·.path)

/-- The words a tour may use for places and events. -/
structure Vocabulary where
  routes : List Route
  events : List String
  authKey : String := "auth"
  deriving DecidableEq, Repr

namespace Vocabulary

def routesFormat : Schema := .rules [
  .kind .object,
  .required ["routes"],
  .properties [
    ("routes", .rules [
      .kind .array,
      .items (.rules [
        .kind .object,
        .required ["routeKey", "path"],
        .properties [
          ("routeKey", .rules [.kind .string, .nonEmpty]),
          ("path", .rules [.kind .string, .pattern .rooted])]])]),
    ("authRouteKey", .rules [.kind .string])]]

def eventsFormat : Schema := .rules [
  .kind .object,
  .required ["events"],
  .properties [
    ("events", .rules [
      .kind .array,
      .items (.rules [
        .kind .object,
        .required ["name"],
        .properties [("name", .rules [.kind .string, .nonEmpty])]])])]]

def routeKeys (v : Vocabulary) : List String := v.routes.map (·.key)

/-- Each key once, in order. -/
def routeKeySet (v : Vocabulary) : List String := v.routes.map (·.key) |> Text.sortedSet

/-- Each event once, in order. -/
def eventSet (v : Vocabulary) : List String := Text.sortedSet v.events

def path? (v : Vocabulary) (key : String) : Option String := Route.pathOf? v.routes key

/-- The login page: the first route with its key. -/
def auth? (v : Vocabulary) : Option Route := v.routes.find? (·.key == v.authKey)

def text (v : Json) (key : String) : String := ((v.get? key).bind Json.str?).getD ""

def list (v : Json) (key : String) : List Json :=
  match v.get? key with
  | some (.arr vs) => vs
  | _ => []

def readFile (st : Store) (file : Path) (format : Schema) : Except Fault Json := do
  let text ← (readText st file).mapError fun
    | .file ⟨.absent, _⟩ => .config (.missing file)
    | f => f
  match Json.read text with
  | .error (.refused r) => .error (.json (.refused r))
  | .error e => .error (.config (.notJson file e))
  | .ok v =>
    match format.complaint? v with
    | some c => .error (.config (.badShape file c))
    | none => .ok v

/-- The first text that stands a second time. -/
def repeated? : List String → List String → Option String
  | _, [] => none
  | seen, t :: ts => if seen.contains t then some t else repeated? (t :: seen) ts

/-- Reads the vocabulary from the files in a directory. -/
def load (st : Store) (directory : Path) : Except Fault Vocabulary := do
  let routesFile ← readFile st (directory / "routes.json") routesFormat
  let eventsFile ← readFile st (directory / "events.json") eventsFormat
  let routes := (list routesFile "routes").map fun r => Route.mk (text r "routeKey") (text r "path")
  match repeated? [] (routes.map (·.key)) with
  | some key => .error (.config (.repeatedRoute key))
  | none =>
    .ok ⟨routes, (list eventsFile "events").map (text · "name"),
      ((routesFile.get? "authRouteKey").bind Json.str?).getD "auth"⟩

end Vocabulary

end Walkthrough
