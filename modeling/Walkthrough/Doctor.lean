import Walkthrough.Reference
import Walkthrough.Settings.Load
import Walkthrough.Tour.Reader
/-!
The doctor: what is well with a project's files and variables, and what is not.
-/

namespace Walkthrough

namespace Doctor

/-- How well something is. -/
inductive Health where
  | pass
  | warn
  | fail
  deriving DecidableEq, Repr

def Health.word : Health → String
  | pass => "PASS"
  | warn => "WARN"
  | fail => "FAIL"

/-- What was found. -/
structure Finding where
  health : Health
  message : String
  deriving DecidableEq, Repr

variable {σ : Type}

/-- What is found of something that is or is not well. -/
def pass (message : String) : Finding := ⟨.pass, message⟩

def warn (message : String) : Finding := ⟨.warn, message⟩

def fail (message : String) : Finding := ⟨.fail, message⟩

/-- A configuration file is there and has its format. -/
def examineFile (st : Store) (file : Path) (format : Schema) : Except Fault Finding := do
  if !(← (st.has file).mapError .file) then return fail s!"{file.name} missing"
  let text ← readText st file
  match Json.read text with
  | .error (.refused r) => .error (.json (.refused r))
  | .error e => return fail s!"{file.name} parse failed: {e.message}"
  | .ok v =>
    match format.complaint? v with
    | some c => return fail s!"{file.name} exists but shape is invalid: {c.message}"
    | none => return pass s!"{file.name} exists and valid"

/-- The tour map can be read if it is there; with its anchors. -/
def examineMap (st : Store) (file : Path) : Except Fault (Finding × Option (List String)) :=
  match TourMap.load st file with
  | .ok none => .ok (warn "tour.map.json missing; run generate-tour-map", none)
  | .ok (some m) => .ok (pass "tour.map.json exists", some m.anchorSet)
  | .error (.config c) => .ok (fail c.message, none)
  | .error f => .error f

def examineEnvFile (st : Store) (file : Path) : Except Fault Finding := do
  if ← (st.has file).mapError .file then return pass ".env.tourkit exists"
  return warn s!".env.tourkit missing at {file}"

def examineVariable (file : Path) (name : String) (value : Option String) : Finding :=
  if value.any (· != "") then pass s!"{name} present"
  else fail s!"{name} missing; set it in {file.name} or the environment"

/-- The browser's driver is installed, in some version. -/
def examineEngine : Option String → Finding
  | none => fail "Playwright is not installed (pip install playwright)"
  | some version =>
    pass ("Playwright installed (" ++ version ++
      "); run 'playwright install chromium' if browsers are missing")

def tourSuffix : String := ".tour.json"

def tourFiles (st : Store) (directory : Path) : List Path :=
  (Text.sorted ((st.namesIn directory).filter (·.endsWith tourSuffix))).map fun name =>
    directory.join ⟨"", [name]⟩

/-- The anchors of a tour that a map does not have, each once, in order. -/
def missingAnchors (known : List String) (t : Tour) : List String :=
  Text.sortedSet (t.anchorReferences.filter fun a => !known.contains a)

/-- A tour has the format of tours, and its anchors are in the map if there is one. -/
def examineTour (st : Store) (known : Option (List String)) (file : Path) :
    Except Fault (List Finding) :=
  match Tour.load st file with
  | .error (.json (.malformed c l k i)) =>
    .ok [fail s!"{file.name} JSON parse failed: {(Json.ReadError.malformed c l k i).message}"]
  | .error (.format c) => .ok [fail s!"{file.name} invalid: {c.message}"]
  | .error f => .error f
  | .ok t =>
    let valid := pass s!"{file.name} valid against tour schema"
    match known with
    | none => .ok [valid]
    | some known =>
      match missingAnchors known t with
      | [] => .ok [valid, pass s!"{file.name} anchors found in tour.map.json"]
      | missing =>
        let named := ", ".intercalate missing
        .ok [valid, fail s!"{file.name} references anchors not in map: {named}"]

def examineTours (st : Store) (known : Option (List String)) (directory : Path) :
    Except Fault (List Finding) := do
  match tourFiles st directory with
  | [] => return [warn s!"No tour JSON files found in {directory}"]
  | files => return (← files.mapM (examineTour st known)).flatten

def examine (l : Layout) (given : Option EnvFile.Variables) (process : EnvFile.Variables)
    (engine : Option String) : Act σ (List Finding) := do
  let routes ← Act.look fun st => examineFile st (l.config / "routes.json") Vocabulary.routesFormat
  let events ← Act.look fun st => examineFile st (l.config / "events.json") Vocabulary.eventsFormat
  let (map, known) ← Act.look fun st => examineMap st l.mapJson
  let envFile ← Act.look fun st => examineEnvFile st l.envFile
  let settings ← Settings.load l given process
  let people := [examineVariable l.envFile "E2E_EMAIL" settings.email,
    examineVariable l.envFile "E2E_PASSWORD" settings.password]
  let tours ← Act.look fun st => examineTours st known l.tours
  return [routes, events, map, envFile] ++ people ++ [examineEngine engine] ++ tours

def countOf (h : Health) (fs : List Finding) : Nat := fs.countP (·.health == h)

def hasFailures (fs : List Finding) : Bool := fs.any (·.health == .fail)

def report (fs : List Finding) : String :=
  let n := fun h => countOf h fs
  "\n".intercalate (["TourKit Doctor", "=============="] ++
    fs.map (fun f => s!"[{f.health.word}] {f.message}") ++
    ["", s!"{n .pass} passed, {n .warn} warnings, {n .fail} failures"])

end Doctor

end Walkthrough
