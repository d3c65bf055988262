import Walkthrough.Path
/-!
Where a project keeps its files.
-/

namespace Walkthrough

/-- The places below a project's root. -/
structure Layout where
  root : Path
  deriving DecidableEq, Repr

namespace Layout

def base (l : Layout) : Path := l.root / "tourkit"

def config (l : Layout) : Path := l.base / "config"

def guides (l : Layout) : Path := l.base / "guides"

def fragments (l : Layout) : Path := l.guides / "fragments"

def mapJson (l : Layout) : Path := l.base / "maps" / "tour.map.json"

def mapDocument (l : Layout) : Path := l.base / "maps" / "TOUR_MAP.md"

def tours (l : Layout) : Path := l.base / "tours"

def artifacts (l : Layout) : Path := l.base / "artifacts"

def envFile (l : Layout) : Path := l.base / ".env.tourkit"

def runDirectory (artifacts : Path) (tourId stamp : String) : Path := artifacts / tourId / stamp

end Layout

end Walkthrough
