import Walkthrough.Files
import Walkthrough.Number.Whole
import Walkthrough.Tour.Cue
import Walkthrough.Tour.Format
/-!
Tours out of their documents. A step's document is read as a cue, field by field and with the faults
of each field; a cue whose values are of the right kinds is a step. Documents of the format have no
fault.
-/

namespace Walkthrough

namespace Cue

def need (v : Json) (key : String) : Except Fault Json :=
  match v with
  | .obj ms =>
    match Json.Members.get? ms key with
    | some w => .ok w
    | none => .error (.step (.missing key))
  | v => .error (.step (.noMembers v))

/-- A member that may be absent or null. -/
def optional (v : Json) (key : String) : Option Json :=
  (v.get? key).filter fun w => w != .null

def orEmpty (v : Json) (key : String) : Json := (v.get? key).getD (.str "")

/-- A whole number out of a value. -/
def whole : Json → Except Fault Int
  | .num n => n.truncate.mapError .number
  | .str s => (Number.ofText s).mapError .number
  | .bool b => .ok (if b then 1 else 0)
  | v => .error (.step (.notWhole v))

def timeout (v : Json) : Except Fault Int :=
  match v.get? "timeoutMs" with
  | some w => whole w
  | none => .ok defaultTimeout

def readCapture (v : Json) : Except Fault (CaptureOf Json Json Json) :=
  return ⟨← need v "when", ← need v "name", optional v "fullPage"⟩

def readMarkup (v : Json) : Except Fault (MarkupOf Json) :=
  return ⟨← need v "instructions", optional v "targetScreenshot"⟩

/-- A member that counts only if it is not empty. -/
def ifFull {α : Type} (read : Json → Except Fault α) (v : Json) (key : String) :
    Except Fault (Option α) :=
  ((v.get? key).filter (·.isTruthy)).mapM read

/-- The extras in a step's document; the capture and the markup are seen first. -/
def readExtras (v : Json) : Except Fault (ExtrasOf Json Json Json Json) := do
  let c ← ifFull readCapture v "capture"
  let m ← ifFull readMarkup v "annotate"
  return ⟨optional v "preDelayMs", optional v "narration", c, m⟩

/-- What a narration says: its message, or its text if there is no message to say. -/
def message (v : Json) : Json :=
  ((v.get? "message").filter (·.isTruthy)).getD (orEmpty v "text")

/-- The word for a kind of step, as it stands in a message. -/
def kindWords (v : Json) : Except Fault String := return (← v.asKey.mapError .kind).words

/-- The action in a step's document; two kinds have two names. -/
def readAction (kind : String) (v : Json) : Except Fault (ActionOf Json Json Json) :=
  match kind with
  | "narration" | "say" => return .narration (message v)
  | "goto" => return .goto (← need v "routeKey")
  | "click" => return .click (orEmpty v "label") (← need v "anchor") (optional v "timeoutMs")
  | "fill" =>
    return .fill (orEmpty v "label") (← need v "anchor") (optional v "value")
      (optional v "valueEnv") (optional v "timeoutMs")
  | "waitForEvent" => return .waitForEvent (orEmpty v "label") (← need v "name") (← timeout v)
  | "expectVisible" =>
    return .expectVisible (orEmpty v "label") (← need v "anchor") (← timeout v)
  | "waitMs" => return .waitMs (← whole (← need v "durationMs"))
  | "screenshot" | "snapshot" =>
    return .screenshot (← need v "name") (optional v "label") (optional v "fullPage")
  | "annotate" =>
    return .annotate (orEmpty v "label") (← need v "instructions") (optional v "targetScreenshot")
  | k => .error (.step (.unsupported k))

def ofJson (v : Json) : Except Fault Cue := do
  let kind ← need v "type"
  let x ← readExtras v
  return ⟨← readAction (← kindWords kind) v, x⟩

def asText : Json → Except Fault String
  | .str s => .ok s
  | v => .error (.step (.illTyped v))

def asFlag : Json → Except Fault Bool
  | .bool b => .ok b
  | v => .error (.step (.illTyped v))

def asTime : Json → Except Fault Number
  | .num n => .ok n
  | v => .error (.step (.illTyped v))

def asMoment (v : Json) : Except Fault Moment :=
  match v.str?.bind Moment.ofWord? with
  | some m => .ok m
  | none => .error (.step (.illTyped v))

def stepExtras (x : ExtrasOf Json Json Json Json) : Except Fault Extras := do
  let capture ← x.capture.mapM fun c =>
    return ⟨← asMoment c.moment, ← asText c.name, ← c.fullPage.mapM asFlag⟩
  let markup ← x.markup.mapM fun m => return ⟨← asText m.instructions, ← m.target.mapM asText⟩
  return ⟨← x.preDelay.mapM asTime, ← x.narration.mapM asText, capture, markup⟩

def step (c : Cue) : Except Fault Step :=
  return ⟨← c.action.mapM asText asFlag asTime, ← stepExtras c.extras⟩

end Cue

def Step.ofJson (v : Json) : Except Fault Step := do (← Cue.ofJson v).step

namespace Tour

def ofJson (v : Json) : Except Fault Tour :=
  match format.complaint? v with
  | some c => .error (.format c)
  | none => do
    let id ← Cue.asText (← Cue.need v "tourId")
    let description ← (Cue.optional v "description").mapM Cue.asText
    let steps ← match v.get? "steps" with
      | some (.arr vs) => vs.mapM Step.ofJson
      | _ => .ok []
    return ⟨id, description, steps⟩

def load (st : Store) (file : Path) : Except Fault Tour := do ofJson (← readJson st file)

end Tour

end Walkthrough
