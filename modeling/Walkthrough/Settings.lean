import Walkthrough.Files
import Walkthrough.Layout
import Walkthrough.Settings.EnvFile
import Walkthrough.Text.Lower
import Walkthrough.Text.Sorted
/-!
Settings of a run, from a file of variables and the variables around the program.
-/

namespace Walkthrough

open EnvFile (Variables)

/-- Where the app is, who logs in, and whether the browser is shown. -/
structure Settings where
  baseUrl : String
  email : Option String := none
  password : Option String := none
  headless : Bool := true
  env : Variables := []
  deriving DecidableEq, Repr

namespace Settings

def hasCredentials (s : Settings) : Bool :=
  s.email.any (· != "") && s.password.any (· != "")

def defaultBaseUrl : String := "http://localhost:3000"

/-- A variable that is there and not empty. -/
def given? (vs : Variables) (name : String) : Option String := (vs.get? name).filter (· != "")

def isOff (s : String) : Bool :=
  ["0", "false", "no"].contains (String.ofList (Text.lower (Text.trim s.toList)))

def ofVariables (vs : Variables) : Settings where
  baseUrl := ((["TOURKIT_BASE_URL", "PLAYWRIGHT_BASE_URL", "NEXT_PUBLIC_APP_URL"].findSome?
    (given? vs)).getD defaultBaseUrl).withoutFinalSlashes
  email := given? vs "E2E_EMAIL"
  password := given? vs "E2E_PASSWORD"
  headless := !isOff ((vs.get? "TOURKIT_HEADLESS").getD "1")
  env := vs

def overlay (below above : Variables) : Variables :=
  above.foldl (fun vs v => vs.put v.1 v.2) below

/-- The bindings in a project's file of variables; without a file there are none. -/
def fileBindings (st : Store) (file : Path) : Except Fault (List (Nat × EnvFile.Binding)) := do
  if !(← (st.hasFile file).mapError .file) then return []
  return EnvFile.read (← readText st file)

/-- The settings from a file's bindings and the variables given, among those of the process; with
the lines of the file that cannot be read. -/
def ofSources (bs : List (Nat × EnvFile.Binding)) (given : Option Variables) (process : Variables) :
    Settings × List Nat :=
  (ofVariables (overlay (EnvFile.values process bs) (given.getD process)), EnvFile.unreadable bs)

end Settings

end Walkthrough
