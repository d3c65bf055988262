import Walkthrough.Json.Writer
import Walkthrough.Tour.Cue
/-!
The document of a tour: what is absent or null has no member.
-/

namespace Walkthrough

/-- Members that are there and not null. -/
def present (ms : List (String × Option Json)) : List (String × Json) :=
  ms.filterMap fun
    | (_, none) | (_, some .null) => none
    | (k, some v) => some (k, v)

namespace Cue

def captureJson (c : CaptureOf Json Json Json) : Json :=
  .obj ([("when", c.moment), ("name", c.name)] ++ present [("fullPage", c.fullPage)])

def markupJson (m : MarkupOf Json) : Json :=
  .obj (("instructions", m.instructions) :: present [("targetScreenshot", m.target)])

def extraMembers (x : ExtrasOf Json Json Json Json) : List (String × Option Json) :=
  [("preDelayMs", x.preDelay), ("narration", x.narration), ("capture", x.capture.map captureJson),
    ("annotate", x.markup.map markupJson)]

def actionMembers : ActionOf Json Json Json → List (String × Option Json)
  | .narration m => [("message", some m)]
  | .goto k => [("routeKey", some k)]
  | .click l a t => [("label", some l), ("anchor", some a), ("timeoutMs", t)]
  | .fill l a v e t =>
    [("label", some l), ("anchor", some a), ("value", v), ("valueEnv", e), ("timeoutMs", t)]
  | .waitForEvent l e t =>
    [("label", some l), ("name", some e), ("timeoutMs", some (.int t))]
  | .expectVisible l a t =>
    [("label", some l), ("anchor", some a), ("timeoutMs", some (.int t))]
  | .waitMs d => [("durationMs", some (.int d))]
  | .screenshot n l f => [("label", l), ("name", some n), ("fullPage", f)]
  | .annotate l i t =>
    [("label", some l), ("targetScreenshot", t), ("instructions", some i)]

def toJson (c : Cue) : Json :=
  .obj (("type", .str c.action.kind) :: present (actionMembers c.action ++ extraMembers c.extras))

end Cue

def Step.toJson (s : Step) : Json := s.cue.toJson

def Tour.toJson (t : Tour) : Json :=
  .objOf [("tourId", some (.str t.id)), ("description", t.description.map .str),
    ("steps", some (.arr (t.steps.map (·.toJson))))]

def Tour.fileText (t : Tour) : String := t.toJson.pretty ++ "\n"

end Walkthrough
