import Walkthrough.Run.Artifacts
import Walkthrough.Tour
/-!
The result of a run: a record for each step that was played, the failure that ended the run if one
did, and the verdict.
-/

namespace Walkthrough

open Json (str)

/-- Why a step fails. -/
inductive FailureKind where
  | timeout
  | elementNotFound
  | navigation
  | configuration
  | error
  deriving DecidableEq, Repr

def FailureKind.word : FailureKind → String
  | timeout => "timeout"
  | elementNotFound => "element-not-found"
  | navigation => "navigation"
  | configuration => "configuration"
  | error => "error"

/-- The failure that ended a run. -/
structure Failure where
  step : Nat
  stepKind : String
  kind : FailureKind
  message : String
  deriving DecidableEq, Repr

/-- What is kept of a step that was played. -/
structure Record where
  step : Nat
  stepKind : String
  key : String
  passed : Bool
  duration : Number
  deriving DecidableEq, Repr

def Failure.toJson (f : Failure) : Json :=
  .obj [("index", .int f.step), ("type", str f.stepKind), ("kind", str f.kind.word),
    ("message", str f.message)]

def Record.toJson (r : Record) : Json :=
  .obj [("index", .int r.step), ("type", str r.stepKind), ("key", str r.key),
    ("outcome", str (if r.passed then "pass" else "fail")), ("durationMs", .num r.duration)]

/-- What came of a run. -/
structure Result where
  tourId : String
  transcript : List Spoken := []
  shots : List Shot := []
  jobs : List Job := []
  records : List Record := []
  failure : Option Failure := none
  deriving DecidableEq, Repr

namespace Result

def passed (r : Result) : Bool := r.failure.isNone

def verdict (r : Result) : String := if r.passed then "pass" else "fail"

def toJson (date : String) (r : Result) : Json :=
  .obj [("tourId", str r.tourId), ("verdict", str r.verdict), ("startedAt", str date),
    ("finishedAt", str date), ("steps", .arr (r.records.map Record.toJson)),
    ("failure", (r.failure.map Failure.toJson).getD .null),
    ("screenshots", .strs (r.shots.map (·.path))), ("annotations", .int r.jobs.length)]

/-- Writes what came of a run: the transcript, the list of screenshots and the result. -/
def write (date : String) (directory : Path) (r : Result) : Filing Unit := do
  Spoken.write r.tourId r.transcript directory
  Shot.write r.shots (directory / "screens.json")
  Filing.writeText (directory / "result.json") ((r.toJson date).pretty ++ "\n")

/-- The screenshot that a markup is for: the last one of the name it gives, or what stands in place
of a name; without that the last one of all. -/
def markedShot (r : Result) : Option Json → Json
  | some target =>
    ((target.str?.bind (Shot.named? r.shots)).map (.str ·.path)).getD target
  | none => .str ((r.shots.getLast?.map (·.path)).getD "")

end Result

end Walkthrough
