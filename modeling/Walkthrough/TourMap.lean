import Walkthrough.Files
import Walkthrough.Text.Sorted
/-!
The tour map: what anchors each route of the app shows, or why a route was skipped.
-/

namespace Walkthrough

/-- What is known of one route. -/
structure MapEntry where
  path : String
  anchors : List String := []
  skipped : Option String := none
  deriving DecidableEq, Repr

/-- The map of an app; routes are in order and each key stands once. -/
structure TourMap where
  generatedAt : String
  routes : List (String × MapEntry)
  events : List String
  deriving DecidableEq, Repr

/-- The key of the entry for anchors found in the app's source. -/
def staticKey : String := "_static"

/-- The path shown for anchors found in the app's source. -/
def staticPath : String := "(source scan)"

namespace TourMap

def format : Schema := .rules [
  .kind .object,
  .required ["routes", "events"],
  .properties [
    ("generatedAt", .rules [.kind .string]),
    ("routes", .rules [
      .kind .object,
      .additional [] (some (.rules [
        .kind .object,
        .required ["path", "anchors"],
        .properties [
          ("path", .rules [.kind .string]),
          ("anchors", .rules [.kind .array, .items (.rules [.kind .string])]),
          ("skippedReason", .rules [.kind .string])]]))]),
    ("events", .rules [.kind .array, .items (.rules [.kind .string])])]]

/-- Gives a route an entry; a route that is there keeps its place. -/
def putRoute : List (String × MapEntry) → String → MapEntry → List (String × MapEntry)
  | [], key, e => [(key, e)]
  | (k, d) :: rs, key, e => if k = key then (k, e) :: rs else (k, d) :: putRoute rs key e

def anchors (m : TourMap) : List String := m.routes.flatMap (·.2.anchors)

/-- Each anchor once, in order. -/
def anchorSet (m : TourMap) : List String := Text.sortedSet m.anchors

def skippedRoutes (m : TourMap) : List (String × String) :=
  m.routes.filterMap fun r => r.2.skipped.map (r.1, ·)

def entryJson (e : MapEntry) : Json :=
  .obj ([("path", .str e.path), ("anchors", .strs e.anchors)] ++
    (e.skipped.map fun s => ("skippedReason", Json.str s)).toList)

def toJson (m : TourMap) : Json :=
  .obj [("generatedAt", .str m.generatedAt),
    ("routes", .obj (m.routes.map fun r => (r.1, entryJson r.2))),
    ("events", .strs m.events)]

def text? (v : Json) (key : String) : Option String := (v.get? key).bind Json.str?

def texts? (v : Json) (key : String) : Option (List String) := (v.get? key).bind Json.strs?

def entryOf? (v : Json) : Option MapEntry := do
  some ⟨← text? v "path", ← texts? v "anchors", text? v "skippedReason"⟩

def ofJson? (v : Json) : Option TourMap := do
  let routes ← match v.get? "routes" with
    | some (.obj ms) => ms.mapM fun m => (entryOf? m.2).map (m.1, ·)
    | _ => none
  some ⟨(text? v "generatedAt").getD "", routes, ← texts? v "events"⟩

/-- Reads the map in a file; no map without a file. -/
def load (st : Store) (file : Path) : Except Fault (Option TourMap) := do
  if !(← (st.has file).mapError .file) then return none
  let text ← readText st file
  match Json.read text with
  | .error (.refused r) => .error (.json (.refused r))
  | .error e => .error (.config (.badMap file e))
  | .ok v =>
    match format.complaint? v with
    | some c => .error (.config (.badMapShape file c))
    | none => .ok (ofJson? v)

end TourMap

end Walkthrough
