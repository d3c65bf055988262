import Walkthrough.CommandLine.Arguments
import Walkthrough.Compile
import Walkthrough.Crawl
import Walkthrough.Doctor
import Walkthrough.Execution
import Walkthrough.TourMap.Document
/-!
The commands: to compile a guide, to map an app, to run a tour, and to see the doctor. Each is an
action that ends with a code and what it has to say.
-/

namespace Walkthrough

namespace CommandLine

/-- The commands. -/
inductive Command where
  | compile
  | map
  | run
  | doctor
  deriving DecidableEq, Repr

namespace Command

def name : Command → String
  | compile => "generate-tour-from-guide"
  | map => "generate-tour-map"
  | run => "run-tour"
  | doctor => "tourkit-doctor"

def all : List Command := [compile, map, run, doctor]

def ofName? (s : String) : Option Command := all.find? (·.name == s)

def form : Command → Form
  | compile => ⟨[.help, .root, .verbose, .fragments, .tours], some "guide"⟩
  | map => ⟨[.help, .root, .verbose, .baseUrl, .headed, .headless, .source], none⟩
  | run => ⟨[.help, .root, .verbose, .baseUrl, .headed, .headless, .output, .noRouteReady],
    some "tour"⟩
  | doctor => ⟨[.help, .root, .verbose], none⟩

end Command

/-- What is around a command. -/
structure Surroundings (ι σ : Type) where
  directory : Path
  process : EnvFile.Variables
  page : Page ι σ
  timing : Timing ι
  session : Session σ
  search : Scan.Search
  /-- The version of the browser's driver, if it is installed. -/
  engine : Option String
  date : String
  /-- The date as a directory's name has it. -/
  stamp : String
  grace : Nat := 0

/-- How a command ends: its code, and lines for its output and for its errors. -/
structure Ending where
  code : Nat := 0
  output : List String := []
  errors : List String := []
  deriving DecidableEq, Repr

/-- What cuts a command short: an end, or a fault that nobody has words for. -/
inductive Halt where
  | ended (e : Ending)
  | raised (f : Fault)

abbrev Doing (σ : Type) := Attempt Halt (Scene σ)

variable {ι σ α : Type}

/-- An action whose faults end the command, if there are words for them. -/
def orEnd (words : Fault → Option String) (a : Act σ α) : Doing σ α := do
  match ← Attempt.outcome a with
  | .ok x => pure x
  | .error f =>
    match words f with
    | some w => throw (.ended { code := 1, errors := [w] })
    | none => throw (.raised f)

/-- An action whose faults there are no words for. -/
def plain (a : Act σ α) : Doing σ α := orEnd (fun _ => none) a

variable (s : Surroundings ι σ)

def layout (a : Arguments) : Layout := ⟨(a.path? .root).getD s.directory⟩

/-- The places whose files a command may read or write. -/
def places (a : Arguments) : List Path :=
  (layout s a).base :: [.fragments, .tours, .output].filterMap a.path? ++
    (a.operand.map Path.ofString).toList

def vocabulary (l : Layout) : Doing σ Vocabulary :=
  orEnd
    (fun
      | .config c => some s!"Config error: {c.message}"
      | _ => none)
    (Act.look fun st => Vocabulary.load st l.config)

/-- The browser is to be shown or not, as the last flag says. -/
def headless? (a : Arguments) : Option Bool :=
  (a.given.filterMap fun
    | (.headed, _) => some false
    | (.headless, _) => some true
    | _ => none).getLast?

def settings (a : Arguments) (l : Layout) : Doing σ Settings := do
  let base ← plain (Settings.load l none s.process)
  let url := (a.value? .baseUrl).filter (· != "")
  return { base with
    baseUrl := (url.map (·.withoutFinalSlashes)).getD base.baseUrl
    headless := (headless? a).getD base.headless }

def compileWords : Fault → Option String
  | .file ⟨.absent, p⟩ => some s!"Guide not found: {p}"
  | .refusal r => some r.message
  | .unresolved is => some (describeIssues is)
  | .config c => some c.message
  | _ => none

def compileFile (setting : Compile.Setting) (guide : Path) : Act σ Tour := do
  let text ← Act.look fun st => readText st guide
  let t ← Act.look fun st => Compile.draft st setting guide.stem guide.text text
  for w in Compile.warnings setting do
    Act.log .warning .compiler w
  Attempt.decided (Compile.check setting guide.text t)
  return t

def compile (a : Arguments) (guide : Path) : Doing σ Ending := do
  let l := layout s a
  let v ← vocabulary l
  let fragments := (a.path? .fragments).getD l.fragments
  let t ← orEnd compileWords do
    let m ← Act.look fun st => TourMap.load st l.mapJson
    compileFile { vocabulary := v, map := m, fragments := some fragments } guide
  let tours := (a.path? .tours).getD l.tours
  plain (Act.file (Compile.write tours t))
  return { output := [s!"Wrote {Compile.destination tours t} ({t.steps.length} steps)"] }

/-- Words for a browser that does not start. -/
def launchWords : Fault → Option String
  | .launch reason => some (Fault.launch reason).message
  | _ => none

/-- The directories to search; one that has no name ends the search before it begins. -/
def directories (a : Arguments) (root : Path) : Doing σ (List String) := do
  let given := a.values .source
  if given.isEmpty then return Scan.defaultDirectories
  let named := (given.takeWhile (·.isSome)).reduceOption
  if named.length < given.length && s.search.isSome then
    let _ ← plain (Act.look (Scan.targets root named))
    throw (.raised (.kind (.operands "/" "PosixPath" "list")))
  return named

def map (a : Arguments) : Doing σ Ending := do
  let l := layout s a
  let v ← vocabulary l
  let settings ← settings s a l
  let directories ← directories s a l.root
  let c : Crawl ι σ := {
    page := s.page, session := s.session, vocabulary := v, settings := settings
    search := s.search, root := l.root, directories := directories, date := s.date }
  let m ← orEnd launchWords c.map
  plain (Act.file (m.write l.mapJson l.mapDocument))
  let skipped := m.skippedRoutes
  let total := m.anchorSet.length
  return { output :=
    [s!"Wrote {l.mapJson} and {l.mapDocument} ({total} unique anchors)"] ++
      skipped.map (fun (key, reason) => s!"  skipped {key}: {reason}") ++
      if skipped.isEmpty then []
      else [s!"{skipped.length} of {v.routes.length} routes skipped"] }

def tourWords (file : Path) : Fault → Option String
  | .file ⟨.absent, _⟩ => some s!"Tour not found: {file}"
  | .json (.malformed c l k i) =>
    some s!"{file} is not valid JSON: {(Json.ReadError.malformed c l k i).message}"
  | _ => none

/-- Words for a tour that is none, and for a browser that does not start. -/
def runWords (file : Path) : Fault → Option String
  | .format c => some s!"{file} is not a valid tour: {c.message}"
  | f => launchWords f

def run (a : Arguments) (file : Path) : Doing σ Ending := do
  let l := layout s a
  let v ← vocabulary l
  let settings ← settings s a l
  let document ← orEnd (tourWords file) (Act.look fun st => readJson st file)
  let name := ((document.get? "tourId").bind Json.str?).filter (· != "")
  let directory := (a.path? .output).getD
    (Layout.runDirectory l.artifacts (name.getD file.stem) s.stamp)
  let e : Execution ι σ := {
    page := s.page, timing := s.timing, session := s.session, vocabulary := v
    settings := settings, awaitRoutes := !a.has .noRouteReady, date := s.date
    grace := s.grace }
  let r ← orEnd (runWords file) (e.execute document directory)
  let artifacts := s!"Artifacts: {directory}"
  match r.failure with
  | some f =>
    return { code := 1, output := [artifacts],
             errors := [s!"FAIL step {f.step} ({f.stepKind}) [{f.kind.word}]: {f.message}"] }
  | none =>
    return { output := [artifacts,
      s!"PASS {r.tourId}: {r.records.length} steps, {r.shots.length} screenshots"] }

def doctor (a : Arguments) : Doing σ Ending := do
  let found ← plain (Doctor.examine (layout s a) none s.process s.engine)
  return { code := if Doctor.hasFailures found then 1 else 0, output := [Doctor.report found] }

/-- Does a command, in a project whose root has a name if it was given. -/
def perform (c : Command) (a : Arguments) : Doing σ Ending := do
  if a.lacksValue .root then throw (.raised (.kind (.operands "/" "list" "str")))
  let operand : Path := a.operand.getD ""
  match c with
  | .compile => compile s a operand
  | .map => map s a
  | .run => run s a operand
  | .doctor => doctor s a

/-- What a command leaves to see: its code or the fault that it ended with, its output and its
errors. -/
structure Outcome where
  ended : Except Fault Nat
  output : String
  errors : String

def unlines (lines : List String) : String := String.join (lines.map (· ++ "\n"))

def journalLine (e : LogEntry) : String :=
  s!"[tourkit] {e.level.word} {e.channel.name}: {e.message}"

/-- The lines of a journal; those for debugging only if they are wanted. -/
def journalLines (isVerbose : Bool) (es : List LogEntry) : List String :=
  (es.filter fun e => isVerbose || e.level != .debug).map journalLine

def outcome (c : Command) (a : Arguments) (scene : Scene σ) : Outcome × Scene σ :=
  let (r, scene) := perform s c a scene
  let journal := journalLines (a.has .verbose) scene.journal
  let said (e : Ending) : Outcome := ⟨.ok e.code, unlines e.output, unlines (journal ++ e.errors)⟩
  (match r with
    | .ok e => said e
    | .error (.ended e) => said e
    | .error (.raised f) => ⟨.error f, "", unlines journal⟩, scene)

end CommandLine

end Walkthrough
