import Walkthrough.Files
import Walkthrough.Json.Display
import Walkthrough.Json.Writer
/-!
What a run leaves behind: a transcript, a list of screenshots, a queue of markup jobs and a log.
What a step states is kept as it stands, so that it may be any value.
-/

namespace Walkthrough

open Json (str)

/-- Where a spoken text comes from: a narration step, or the narration of another step. -/
inductive SpokenBy where
  | narration
  | extras
  deriving DecidableEq, Repr

/-- The word for where a text comes from. -/
def SpokenBy.word : SpokenBy → String
  | narration => "narration"
  | extras => "metadata"

/-- A text that was spoken at a step. -/
structure Spoken where
  step : Int
  text : Json
  source : String := SpokenBy.narration.word
  deriving DecidableEq, Repr

/-- A whole number on three places at least. -/
def threePlaces (n : Int) : String :=
  let lead := if n < 0 then ["-"] else []
  let ds := toString n.natAbs
  "".intercalate lead ++ String.ofList (List.replicate (3 - lead.length - ds.length) '0') ++ ds

namespace Spoken

def listJson (es : List Spoken) : Json :=
  .arr (es.map fun e =>
    .obj [("step_index", .int e.step), ("text", e.text), ("source", str e.source)])

def script (tourId : String) (es : List Spoken) : String :=
  "\n".intercalate ([s!"# {tourId} narration script", ""] ++
    es.map (fun e => s!"- [{threePlaces e.step}] {e.text.words}") ++ [""])

def write (tourId : String) (es : List Spoken) (directory : Path) : Filing Unit := do
  Filing.writeText (directory / "transcript.json") ((listJson es).pretty ++ "\n")
  Filing.writeText (directory / "transcript.md") (script tourId es)

end Spoken

/-- A screenshot that was made. -/
structure Shot where
  name : String
  path : String
  step : Int
  fullPage : Json
  deriving DecidableEq, Repr

namespace Shot

def listJson (shots : List Shot) : Json :=
  .arr (shots.map fun s =>
    .obj [("name", str s.name), ("path", str s.path), ("step_index", .int s.step),
      ("full_page", s.fullPage)])

/-- The last screenshot of a name. -/
def named? (shots : List Shot) (name : String) : Option Shot :=
  shots.reverse.find? (·.name == name)

def write (shots : List Shot) (file : Path) : Filing Unit :=
  Filing.writeText file ((listJson shots).pretty ++ "\n")

end Shot

/-- A screenshot to mark up. -/
structure Job where
  tourId : String
  step : Int
  label : String
  screenshot : Json
  instructions : Json
  deriving DecidableEq, Repr

namespace Job

def toJson (j : Job) : Json :=
  .obj [("tourId", str j.tourId), ("stepIndex", .int j.step), ("label", str j.label),
    ("screenshotPath", j.screenshot), ("instructions", j.instructions)]

def line (j : Job) : String := j.toJson.compact ++ "\n"

def append (j : Job) (file : Path) : Filing Unit := do
  Filing.makeDirectories file.parent
  Filing.append file (Text.Utf8.encode j.line.toList)

end Job

namespace RunLog

/-- Makes a log's file, if it is not there. -/
def start (file : Path) : Filing Unit := do
  Filing.makeDirectories file.parent
  Filing.append file []

def append (file : Path) (date line : String) : Filing Unit :=
  Filing.append file (Text.Utf8.encode (date ++ " " ++ line ++ "\n").toList)

end RunLog

end Walkthrough
