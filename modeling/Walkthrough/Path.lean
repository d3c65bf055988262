import Walkthrough.Text.Lines
/-!
Slash-separated paths. A path keeps `..`; empty parts and `.` are dropped when it is read.
-/

namespace Walkthrough

/-- A path: its leading slashes (none, one or two) and its parts. -/
structure Path where
  root : String
  parts : List String
  deriving DecidableEq, Repr, Inhabited

namespace Path

/-- How a text's leading slashes count: two stay two, any other number is one. -/
def rootOf (s : List Char) : String :=
  match s.takeWhile (· == '/') with
  | [] => ""
  | ['/', '/'] => "//"
  | _ => "/"

def ofString (s : String) : Path :=
  ⟨rootOf s.toList, (s.pieces '/').filter fun p => p != "" && p != "."⟩

instance : Coe String Path := ⟨ofString⟩

def text (p : Path) : String :=
  match p.root ++ "/".intercalate p.parts with
  | "" => "."
  | s => s

instance : ToString Path := ⟨text⟩

def isAbsolute (p : Path) : Bool := p.root != ""

/-- A path seen from another; an absolute path stays what it is. -/
def join (p q : Path) : Path := if q.isAbsolute then q else ⟨p.root, p.parts ++ q.parts⟩

instance : HDiv Path Path Path := ⟨join⟩

instance : HDiv Path String Path := ⟨fun p s => p.join (ofString s)⟩

/-- The path without its last part. -/
def parent (p : Path) : Path := ⟨p.root, p.parts.dropLast⟩

/-- The last part. -/
def name (p : Path) : String := p.parts.getLast?.getD ""

/-- A name cut at its last dot, unless the dot is its first or last character. -/
def splitName (name : String) : String × String :=
  let back := name.toList.reverse
  let ext := back.takeWhile (· != '.')
  match back.dropWhile (· != '.') with
  | '.' :: c :: stem =>
    if ext.isEmpty then (name, "")
    else (String.ofList (c :: stem).reverse, String.ofList ('.' :: ext.reverse))
  | _ => (name, "")

/-- The name without its suffix. -/
def stem (p : Path) : String := (splitName p.name).1

/-- The name's suffix with its dot, if it has one. -/
def suffix (p : Path) : String := (splitName p.name).2

theorem parent_join_name (p : Path) (s : String) (h : ofString s = ⟨"", [s]⟩) :
    (p / s).parent = p := by
  change (p.join (ofString s)).parent = p
  simp [h, join, isAbsolute, parent]

end Path

end Walkthrough
