import Walkthrough.Fault
/-!
Text files: bytes that are UTF-8, with every line end read as a line feed.
-/

namespace Walkthrough

/-- Work on files. What was done before a fault stays done. -/
abbrev Filing := Attempt Fault Store

namespace Filing

def makeDirectories (p : Path) : Filing Unit := (Store.makeDirectories p).withCause .file

def write (p : Path) (content : Text.Utf8.Bytes) : Filing Unit :=
  .change fun st => (st.write p content).mapError .file

def append (p : Path) (content : Text.Utf8.Bytes) : Filing Unit :=
  .change fun st => (st.append p content).mapError .file

/-- Writes a text file, after making the directories above it. -/
def writeText (p : Path) (text : String) : Filing Unit := do
  makeDirectories p.parent
  write p (Text.Utf8.encode text.toList)

end Filing

def readText (st : Store) (p : Path) : Except Fault String := do
  let bytes ← (st.read p).mapError .file
  let s ← (Text.Utf8.decode bytes).mapError .utf8
  .ok (String.ofList (Text.unifyLineEnds s))

def readJson (st : Store) (p : Path) : Except Fault Json := do
  (Json.read (← readText st p)).mapError .json

end Walkthrough
