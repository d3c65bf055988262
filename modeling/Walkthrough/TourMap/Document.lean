import Walkthrough.Json.Writer
import Walkthrough.TourMap
/-!
The tour map as a document for readers: anchors grouped by domain, component and element kind.
-/

namespace Walkthrough.TourMap

/-- A part of an anchor, counted from nought. -/
def part (n : Nat) (anchor : String) : String := ((anchor.pieces '.')[n]?).getD "unknown"

/-- Texts in groups of one key each, keys in order, the texts of a group in their order. -/
def groupBy (key : String → String) (ts : List String) : List (String × List String) :=
  (Text.sortedSet (ts.map key)).map fun k => (k, ts.filter (key · == k))

/-- Anchors by domain, component and element kind, all in order. -/
def grouped (anchors : List String) :
    List (String × List (String × List (String × List String))) :=
  (groupBy (part 1) (Text.sorted anchors)).map fun (domain, inDomain) =>
    (domain, (groupBy (part 2) inDomain).map fun (component, inComponent) =>
      (component, groupBy (part 3) inComponent))

def code (s : String) : String := String.ofList ('\x60' :: s.toList ++ ['\x60'])

def groupLines (groups : List (String × List (String × List (String × List String)))) :
    List String :=
  groups.flatMap fun (domain, components) =>
    ("- **" ++ domain ++ "**") :: components.flatMap fun (component, elements) =>
      ("  - *" ++ component ++ "*") :: elements.flatMap fun (element, anchors) =>
        ("    - " ++ element) :: anchors.map fun a => "      - " ++ code a

def routeLines (key : String) (e : MapEntry) : List String :=
  [s!"## {key} ({e.path})"] ++
    (e.skipped.map fun reason => s!"> skipped: {reason}").toList ++
    (match grouped e.anchors with
      | [] => ["- (no anchors found)"]
      | groups => groupLines groups) ++
    [""]

def usualTitle : String := "Tour Map"

def document (m : TourMap) (title : String := usualTitle) : String :=
  "\n".intercalate ([s!"# {title}", "", s!"Generated: {m.generatedAt}", ""] ++
    m.routes.flatMap (fun r => routeLines r.1 r.2) ++
    ["## Events"] ++ m.events.map (fun e => "- " ++ code e) ++ [""])

def write (m : TourMap) (json markdown : Path) : Filing Unit := do
  Filing.writeText json (m.toJson.pretty ++ "\n")
  Filing.writeText markdown m.document

end Walkthrough.TourMap
