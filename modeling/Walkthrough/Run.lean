import Walkthrough.Identifier
import Walkthrough.Run.Result
import Walkthrough.Scene
import Walkthrough.Settings.EnvFile
import Walkthrough.Timing
import Walkthrough.Tour.Cue
import Walkthrough.Url.Route
import Walkthrough.Vocabulary
/-!
Runs: the cues of a tour's steps are played on a page one after the other until one fails. A run
leaves a transcript, screenshots, markup jobs, a log and a result behind, however it ends.
-/

namespace Walkthrough

open EnvFile (Variables)

/-- The event that an app fires when a route is ready. -/
def routeReadyEvent : String := "tour.event.route.ready"

/-- What a run is made with; times are in milliseconds. Variables are those given, or else those of
the process. -/
structure RunConfig where
  baseUrl : String
  routes : List Route
  directory : Path
  defaultTimeout : Number := .int defaultTimeout
  navigationTimeout : Number := .int 45000
  tourMode : Bool := true
  readyEvent : Option String := some routeReadyEvent
  env : Option Variables := none
  process : Variables := []
  date : String
  /-- How often an action is tried, beyond once for each millisecond that it has, before the run is
  interrupted from outside. It does not come to that where the clock goes forward. -/
  grace : Nat := 0

/-- The value of a variable that a step names; only texts are names, and not every other value can
be asked for. -/
def RunConfig.envValue? (c : RunConfig) (name : Json) : Except KindFault (Option String) :=
  match name, c.env with
  | .str n, some given => .ok (given.get? n)
  | .str n, none => .ok (c.process.get? n)
  | v, some _ => v.asKey.map fun _ => none
  | v, none => .error (.notAName v)

def RunConfig.path? (c : RunConfig) (key : Json) : Except KindFault (Option String) :=
  match key with
  | .str k => .ok (Route.pathOf? c.routes k)
  | v => v.asKey.map fun _ => none

namespace Run

/-- A run while it goes on. -/
structure State (σ : Type) where
  scene : Scene σ
  result : Result
  notes : List String := []

/-- What ends a step: a failure of the step, or a fault that ends the whole run. -/
inductive Stop where
  | failed (kind : FailureKind) (message : String)
  | raised (fault : Fault)

/-- What a run is made on: a page, what its clock's readings mean, and a configuration. -/
structure Player (ι σ : Type) where
  page : Page ι σ
  timing : Timing ι
  config : RunConfig

abbrev Play (ε σ : Type) := Attempt ε (State σ)

variable {ε ι σ α : Type}

def onScene (cause : Fault → ε) (a : Act σ α) : Play ε σ α :=
  Attempt.focus State.scene (fun sc r => { r with scene := sc }) cause a

def update (f : Result → Result) : Play ε σ Unit := modify fun r => { r with result := f r.result }

def note (line : String) : Play ε σ Unit := modify fun r => { r with notes := r.notes ++ [line] }

def log (level : Level) (message : String) : Play Stop σ Unit :=
  onScene .raised (Act.log level .runner message)

/-- A value, unless it is of a wrong kind. -/
def kindly (x : Except KindFault α) : Play Stop σ α :=
  Attempt.decided (x.mapError fun f => .raised (.kind f))

def fail (kind : FailureKind) (message : String) : Play Stop σ α := throw (.failed kind message)

/-- An action whose faults are seen by another before they are raised. -/
def onFault (a : Play Stop σ α) (handle : Fault → Play Stop σ α) : Play Stop σ α := do
  match ← Attempt.outcome a with
  | .ok x => pure x
  | .error (.raised f) => handle f
  | .error stop => throw stop

/-- A fault of the browser fails the step: a timeout as such, any other as an error. -/
def guarded (a : Play Stop σ α) : Play Stop σ α :=
  onFault a fun f =>
    if f.isTimeout then fail .timeout f.firstLine
    else if f.isBrowser then fail .error f.firstLine
    else throw (.raised f)

/-- The time between two tries of an action, in milliseconds. -/
def retryInterval : Number := .int 200

/-- Words of an error that may pass when an action is tried again. -/
def transientMarks : List String := ["detached", "intercept", "not attached"]

def isTransient (f : Fault) : Bool := transientMarks.any f.message.holds

/-- What ends a run that would go on for ever. -/
def interruption : Fault := .page .interrupt ""

/-- A name with one low line in place of each run of characters that a file name does not keep. -/
def fileName : List Char → List Char
  | [] => []
  | [c] => [if isNameChar c then c else '_']
  | c :: d :: r =>
    if isNameChar c then c :: fileName (d :: r)
    else if isNameChar d then '_' :: fileName (d :: r)
    else fileName (d :: r)

def shotPath (directory : Path) (index : Nat) (name : String) : Path :=
  let safe := match String.ofList (fileName name.toList) with
    | "" => s!"step-{index}"
    | t => t
  directory / "screens" / (threePlaces index ++ "_" ++ safe ++ ".png")

namespace Player

variable (p : Player ι σ)

def ask (c : PageCall) : Play Stop σ c.Answer := onScene .raised (Act.ask p.page c)

def now (cause : Fault → ε) : Play ε σ ι := onScene cause (Act.now p.page)

def timeLeft (deadline : ι) : Play Stop σ Int := do
  let t ← p.now .raised
  Attempt.decided ((p.timing.left deadline t).mapError fun f => .raised (.number f))

def speak (index : Nat) (text : Json) (source : SpokenBy) : Play Stop σ Unit :=
  update fun r => { r with transcript := r.transcript ++ [⟨index, text, source.word⟩] }

/-- Makes a screenshot; it covers the full page unless the step says otherwise. -/
def shoot (index : Nat) (name : Json) (fullPage : Option Json) : Play Stop σ Unit := do
  let name ← kindly name.asText
  let path := shotPath p.config.directory index name
  let full := fullPage.getD (.bool true)
  let image ← p.ask (.screenshot path.text full)
  onScene .raised (Act.file (Filing.write path image))
  note s!"  screenshot: {path}"
  update fun r => { r with shots := r.shots ++ [⟨name, path.text, index, full⟩] }

/-- Makes a step's capture, if its moment has come; an error of the browser is only noted. -/
def capture (index : Nat) (moment : Moment) :
    Option (CaptureOf Json Json Json) → Play Stop σ Unit
  | none => pure ()
  | some c =>
    if c.moment != .str moment.word then pure () else
    onFault (p.shoot index c.name c.fullPage) fun f => do
      if !f.isBrowser then throw (.raised f)
      let name := c.name.words
      log .warning s!"Capture {name} ({moment.word}) failed at step {index}: {f.firstLine}"
      note s!"  [WARN] capture {name} failed: {f.firstLine}"

def queueMarkup (tourId : String) (index : Nat) (label : String) (m : MarkupOf Json) :
    Play Stop σ Unit := do
  let shot := (← get).result.markedShot m.target
  let job : Job := ⟨tourId, index, label, shot, m.instructions⟩
  onScene .raised (Act.file (job.append (p.config.directory / "annotations.jsonl")))
  update fun r => { r with jobs := r.jobs ++ [job] }
  note ("  annotate: " ++ label ++ " -> " ++
    if shot.isTruthy then shot.words else "(no screenshot)")

/-- Waits for an event, of a route if one is given. -/
def awaitEvent (name : Json) (timeout : Number) (route : Option String := none) :
    Play Stop σ Unit :=
  onFault (p.ask (.waitForEvent name route timeout)) fun f =>
    if f.isTimeout then
      let target := match route.filter (· != "") with
        | some k => " for route " ++ k
        | none => ""
      fail .timeout s!"Event {name.words}{target} not received within {timeout}ms"
    else throw (.raised f)

def openRoute (key : Json) : Play Stop σ Unit := do
  match ← kindly (p.config.path? key) with
  | none => fail .configuration s!"Unknown routeKey in goto step: {key.words}"
  | some path =>
    let url ← Attempt.decided ((routeUrl p.config.baseUrl path p.config.tourMode).mapError .raised)
    let status : Option Int ←
      onFault (p.ask (.goto url .parsed p.config.navigationTimeout)) fun f =>
        if f.isBrowser then fail .navigation s!"Navigation to {url} failed: {f.firstLine}"
        else throw (.raised f)
    match status with
    | some n => if 400 ≤ n then fail .navigation s!"Navigation to {url} returned HTTP {n}"
    | none => pure ()
    match p.config.readyEvent with
    | some e => p.awaitEvent (.str e) p.config.defaultTimeout key.str?
    | none => pure ()

/-- Fails a step whose element did not come up in time. -/
def giveUp (anchor verb timeout : String) : Play Stop σ α := do
  let n : Int ← p.ask (.count (selectorOf anchor))
  if n = 0 then fail .elementNotFound s!"Anchor {anchor} not found within {timeout}ms ({verb})"
  else fail .timeout s!"{verb} timed out for anchor {anchor} ({timeout}ms)"

/-- Waits for an element and acts on it, if there is time left then. -/
def tryOnce (anchor : String) (act : Number → PageCall) (deadline : ι) (left : Int) :
    Play Stop σ Bool := do
  let _ : Unit ← p.ask (.waitVisible (selectorOf anchor) (.int left))
  let left ← p.timeLeft deadline
  if left ≤ 0 then return false
  let _ ← p.ask (act (.int left))
  return true

/-- Tries an action again and again while time is left and its errors may pass. Nothing comes of it
when it would have to be tried more often. -/
def attempts (anchor verb : String) (act : Number → PageCall) (deadline : ι) :
    Nat → Int → Play Stop σ (Option Bool)
  | 0, left => return if left ≤ 0 then some false else none
  | tries + 1, left => do
    if left ≤ 0 then return some false
    match ← Attempt.outcome (p.tryOnce anchor act deadline left) with
    | .ok done => return some done
    | .error (.raised f) =>
      if f.isTimeout then return some false
      if !f.isBrowser then throw (.raised f)
      if !isTransient f then fail .error s!"{verb} failed for {anchor}: {f.firstLine}"
      log .debug s!"Retrying {verb} on {anchor} after transient error: {f.firstLine}"
      let _ : Unit ← p.ask (.pause (.num retryInterval))
      attempts anchor verb act deadline tries (← p.timeLeft deadline)
    | .error stop => throw stop

/-- How many tries are waited for. There are no more than milliseconds left where the clock goes
forward, since one that is followed by another takes a pause; elsewhere they may have no end. -/
def tries (left : Int) : Nat := left.toNat + p.config.grace

/-- Acts on an element within the time that the step states, or the usual one. -/
def interact (anchor verb : String) (act : Number → PageCall) (timeout : Option Json) :
    Play Stop σ Unit := do
  let timeout := timeout.getD (.num p.config.defaultTimeout)
  let start ← p.now .raised
  let time ← kindly timeout.asTime
  let deadline ← Attempt.decided
    ((p.timing.after start time).mapError fun f => .raised (.number f))
  let left ← p.timeLeft deadline
  match ← p.attempts anchor verb act deadline (p.tries left) left with
  | some true => pure ()
  | some false => p.giveUp anchor verb timeout.words
  | none => throw (.raised interruption)

def fillValue (anchor : String) (value envName : Option Json) : Play Stop σ Json := do
  match envName, value with
  | some name, _ =>
    match ← kindly (p.config.envValue? name) with
    | some t => return .str t
    | none => fail .configuration s!"Environment variable {name.words} is not set (fill {anchor})"
  | none, some v => return v
  | none, none => fail .configuration s!"Fill step has no value for {anchor}"

def perform (tourId : String) (index : Nat) (c : Cue) : Play Stop σ Unit := do
  match c.action with
  | .narration message =>
    speak index message .narration
    note s!"  narration: {message.words}"
  | .goto key => p.openRoute key
  | .click _ anchor timeout =>
    let anchor := anchor.words
    p.interact anchor "click" (.click (selectorOf anchor)) timeout
  | .fill _ anchor value envName timeout =>
    let anchor := anchor.words
    let value ← p.fillValue anchor value envName
    p.interact anchor "fill" (.fill (selectorOf anchor) value) timeout
  | .waitForEvent _ event timeout => p.awaitEvent event (.int timeout)
  | .expectVisible _ anchor timeout =>
    let anchor := anchor.words
    onFault (p.ask (.waitVisible (selectorOf anchor) (.int timeout))) fun f =>
      if f.isTimeout then p.giveUp anchor "expectVisible" (toString timeout) else throw (.raised f)
  | .waitMs duration => p.ask (.pause (.int duration))
  | .screenshot name _ fullPage => p.shoot index name fullPage
  | .annotate _ instructions target =>
    p.queueMarkup tourId index (c.markupLabel index) ⟨instructions, target⟩

/-- Plays a cue: the pause before it, its narration, its action between its captures, and its
markup. -/
def playCue (tourId : String) (index : Nat) (c : Cue) : Play Stop σ Unit := do
  let url : String ← p.ask .url
  note s!"[STEP {index}] type={c.action.kind} key={c.describe} url={url}"
  log .info s!"Step {index}: {c.action.kind} {c.describe}"
  guarded do
    match c.extras.preDelay.filter (·.isTruthy) with
    | some t =>
      note s!"  preDelayMs: {t.words}"
      p.ask (.pause t)
    | none => pure ()
    match c.extras.narration.filter (·.isTruthy) with
    | some t => speak index t .extras
    | none => pure ()
    p.capture index .before c.extras.capture
    p.perform tourId index c
    p.capture index .after c.extras.capture
  match c.extras.markup with
  | some m => p.queueMarkup tourId index (c.markupLabel index) m
  | none => pure ()

/-- Records a cue that began at a reading of the clock. -/
def record (index : Nat) (c : Cue) (start : ι) (passed : Bool) : Play Fault σ Unit := do
  let t ← p.now id
  update fun r => { r with
    records := r.records ++
      [⟨index, c.action.kind, c.describe, passed, p.timing.elapsed start t⟩] }

/-- Plays a cue and records how it ended; the run goes on if it passed. -/
def recordCue (tourId : String) (index : Nat) (c : Cue) : Play Fault σ Bool := do
  let kind := c.action.kind
  let start ← p.now id
  match ← Attempt.outcome (p.playCue tourId index c) with
  | .ok () =>
    p.record index c start true
    return true
  | .error (.failed why message) =>
    update fun r => { r with failure := some ⟨index, kind, why, message⟩ }
    p.record index c start false
    note s!"[ERROR] step {index} type={kind} kind={why.word}: {message}"
    onScene id (Act.log .error .runner s!"Step {index} ({kind}) failed [{why.word}]: {message}")
    return false
  | .error (.raised f) =>
    update fun r => { r with
      failure := some ⟨index, kind, .error, s!"Run aborted: {f.firstLine}"⟩ }
    p.record index c start false
    note s!"[ERROR] step {index} type={kind} aborted: {f.firstLine}"
    throw f

/-- Plays cues in order, from a place in the tour on, until one does not pass. -/
def playCues (tourId : String) : Nat → List Cue → Play Fault σ Unit
  | _, [] => pure ()
  | index, c :: cs => do
    if ← p.recordCue tourId index c then playCues tourId (index + 1) cs

/-- Writes what came of the run and notes its verdict. -/
def finish : Play Fault σ Unit := do
  let r := (← get).result
  onScene id (Act.file (r.write p.config.date p.config.directory))
  note s!"Tour {r.tourId} finished: {r.verdict}"

def logFile : Path := p.config.directory / "runlog.txt"

def writeNotes : Play Fault σ Unit := do
  let lines := (← get).notes
  onScene id (Act.file (lines.forM (RunLog.append p.logFile p.config.date)))

/-- Plays the cues of a tour. What came of the run is written when they end, and its notes last. -/
def play (tourId : String) (cues : List Cue) : Play Fault σ Unit := do
  onScene id (Act.file (Filing.makeDirectories (p.config.directory / "screens")))
  onScene id (Act.file (RunLog.start p.logFile))
  let steps := do
    onScene id (Act.ask p.page .addInitScript)
    p.playCues tourId 0 cues
  let all := do
    note s!"Tour {tourId} started ({cues.length} steps)"
    Attempt.thenAlways steps p.finish
  Attempt.thenAlways all p.writeNotes

def runCues (tourId : String) (cues : List Cue) : Act σ Result :=
  fun sc =>
    let (r, st) := p.play tourId cues { scene := sc, result := { tourId := tourId } }
    (r.map fun _ => st.result, st.scene)

def run (t : Tour) : Act σ Result := p.runCues t.id t.cues

end Player

end Run

end Walkthrough
