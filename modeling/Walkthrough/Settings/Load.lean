import Walkthrough.Scene
import Walkthrough.Settings
/-!
Settings read for a project; lines of its file of variables that cannot be read are noted in the
journal.
-/

namespace Walkthrough.Settings

/-- The settings of a project, with variables given in place of those of the process. -/
def load {σ : Type} (l : Layout) (given : Option EnvFile.Variables)
    (process : EnvFile.Variables) : Act σ Settings := do
  let bindings ← Act.look fun st => fileBindings st l.envFile
  let (settings, unreadable) := ofSources bindings given process
  for line in unreadable do
    Act.log .warning .envFile
      s!"python-dotenv could not parse statement starting at line {line}"
  return settings

end Walkthrough.Settings
