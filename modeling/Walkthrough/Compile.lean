import Walkthrough.Guide
import Walkthrough.Reference
import Walkthrough.Tour.Format
import Walkthrough.Tour.Writer
/-!
Compiling guides: a guide's steps, opened by a narration, become a tour whose references are known
and whose document has the format of tours.
-/

namespace Walkthrough.Compile

abbrev Intros := List (String × String)

/-- The opening narrations of tours that have one of their own. -/
def usualIntros : Intros :=
  [("first-thumbnail",
      "Let's create your first thumbnail, from a blank studio to a finished result."),
    ("onboarding", "Welcome! This quick tour shows you around so you can get started.")]

def isWordBreak (c : Char) : Bool := c == '-' || c == '_'

def topic (tourId : String) : String :=
  match String.ofList (Text.trim (tourId.toList.map fun c => if isWordBreak c then ' ' else c)) with
  | "" => "this feature"
  | t => t

def intro (intros : Intros) (tourId : String) : String :=
  match (intros.lookup tourId).filter (· != "") with
  | some t => t
  | none => s!"In this walkthrough we'll go through {topic tourId} step by step."

def withIntro (intros : Intros) (tourId : String) (steps : List Step) : List Step :=
  match steps with
  | ⟨.narration _, _⟩ :: _ => steps
  | _ => ⟨.narration (intro intros tourId), {}⟩ :: steps

/-- What a guide is compiled with. -/
structure Setting where
  vocabulary : Vocabulary
  map : Option TourMap
  fragments : Option Path := none
  intros : Intros := usualIntros

/-- The tour of a guide, before anything in it is checked. -/
def draft (st : Store) (s : Setting) (tourId source text : String) : Except Fault Tour := do
  let steps ← Guide.parse st s.fragments source text
  return ⟨tourId, Guide.title? text, withIntro s.intros tourId steps⟩

def warnings (s : Setting) : List String :=
  if s.map.isNone then
    ["No tour map found; anchor validation skipped. Run generate-tour-map first."]
  else []

/-- Every reference is known and the document has the format. -/
def check (s : Setting) (source : String) (t : Tour) : Except Fault Unit :=
  match t.issues (Known.of s.vocabulary s.map) with
  | [] =>
    match Tour.format.complaint? t.toJson with
    | some c => .error (.refusal ⟨.notATour c, source, none⟩)
    | none => .ok ()
  | issues => .error (.unresolved issues)

def text (st : Store) (s : Setting) (tourId source text : String) : Except Fault Tour := do
  let t ← draft st s tourId source text
  check s source t
  return t

def destination (directory : Path) (t : Tour) : Path := directory / (t.id ++ ".tour.json")

def write (directory : Path) (t : Tour) : Filing Unit :=
  Filing.writeText (destination directory t) t.fileText

end Walkthrough.Compile
