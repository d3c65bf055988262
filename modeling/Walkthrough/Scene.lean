import Walkthrough.Files
import Walkthrough.Page
/-!
What a program acts on: a page, a browser's handles, files and a journal; and actions, which end
with a value or a fault and leave the scene behind in either case.
-/

namespace Walkthrough

/-- How much a journal entry matters. -/
inductive Level where
  | debug
  | info
  | warning
  | error
  deriving DecidableEq, Repr

def Level.word : Level → String
  | debug => "DEBUG"
  | info => "INFO"
  | warning => "WARNING"
  | error => "ERROR"

/-- What a journal entry is about. -/
inductive Channel where
  | compiler
  | crawler
  | envFile
  | execution
  | runner
  | session
  deriving DecidableEq, Repr

def Channel.name : Channel → String
  | compiler => "tourkit.dsl.compiler"
  | crawler => "tourkit.crawler"
  | envFile => "dotenv.main"
  | execution => "tourkit.orchestrator"
  | runner => "tourkit.runner"
  | session => "tourkit.browser"

/-- An entry of the journal. -/
structure LogEntry where
  level : Level
  channel : Channel
  message : String
  deriving DecidableEq, Repr

/-- What a browser session holds. -/
structure Handles where
  driver : Bool := false
  browser : Bool := false
  context : Bool := false
  page : Bool := false
  deriving DecidableEq, Repr

/-- What a program acts on. -/
structure Scene (σ : Type) where
  page : σ
  handles : Handles := {}
  files : Store := Store.empty
  journal : List LogEntry := []

abbrev Act (σ : Type) := Attempt Fault (Scene σ)

namespace Act

variable {σ ι : Type}

def log (level : Level) (channel : Channel) (message : String) : Act σ Unit :=
  modify fun s => { s with journal := s.journal ++ [⟨level, channel, message⟩] }

def look {α : Type} (f : Store → Except Fault α) : Act σ α := do
  Attempt.decided (f (← get).files)

def file {α : Type} (a : Filing α) : Act σ α :=
  Attempt.focus Scene.files (fun files s => { s with files := files }) id a

def ask (p : Page ι σ) (c : PageCall) : Act σ c.Answer :=
  fun s =>
    let (r, page) := p.answer c s.page
    (r, { s with page := page })

def now (p : Page ι σ) : Act σ ι :=
  fun s =>
    let (r, page) := p.clock s.page
    (r, { s with page := page })

end Act

end Walkthrough
