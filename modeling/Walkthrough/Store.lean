import Walkthrough.Attempt
import Walkthrough.Path
import Walkthrough.Text.Quoted
import Walkthrough.Text.Utf8
/-!
A tree of files: what is at a path, and what reading, writing and making directories do to it.
Paths are looked up part by part from the working directory, which lies somewhere below others;
each operation fails with the cause a file system gives.
-/

namespace Walkthrough

open Text.Utf8 (Bytes)

/-- What a path can lead to. -/
inductive Entry where
  | directory
  | file (content : Bytes)
  deriving DecidableEq, Repr, Inhabited

/-- Where an entry is: the parts of its path from the working directory, with `..` only in front,
or from the top of the file system. -/
abbrev Location := List String

/-- The working directory, one above it, or the top of the file system. -/
def Location.isAlwaysThere : Location → Bool
  | ["/"] | ["//"] => true
  | parts => parts.all (· == "..")

def Location.up : Location → Location
  | ["/"] => ["/"]
  | ["//"] => ["//"]
  | parts => if parts.all (· == "..") then ".." :: parts else parts.dropLast

/-- Where a path leads if there are directories all along it. -/
def Location.of (p : Path) : Location :=
  p.parts.foldl (fun loc part => if part = ".." then loc.up else loc ++ [part])
    (if p.isAbsolute then [p.root] else [])

/-- Entries by location, each location at most once. Some directories are there without one. -/
structure Store where
  entries : List (Location × Entry)
  deriving Repr, Inhabited

/-- Why a file operation fails. -/
inductive FileCause where
  | absent
  | exists
  | notDirectory
  | isDirectory
  | nameTooLong
  | zeroCharacter
  deriving DecidableEq, Repr

namespace FileCause

/-- The number of a cause that a file system gives; a path that ends at a zero character does not
get there. -/
def number? : FileCause → Option Nat
  | absent => some 2
  | .exists => some 17
  | notDirectory => some 20
  | isDirectory => some 21
  | nameTooLong => some 36
  | zeroCharacter => none

def words : FileCause → String
  | absent => "No such file or directory"
  | .exists => "File exists"
  | notDirectory => "Not a directory"
  | isDirectory => "Is a directory"
  | nameTooLong => "File name too long"
  | zeroCharacter => "embedded null byte"

end FileCause

/-- A file operation that failed at a path. -/
structure FileFault where
  cause : FileCause
  path : Path
  deriving DecidableEq, Repr

def FileFault.message (f : FileFault) : String :=
  match f.cause.number? with
  | some n => s!"[Errno {n}] {f.cause.words}: {f.path.text.inQuotes}"
  | none => f.cause.words

namespace Store

def empty : Store := ⟨[]⟩

def at? (st : Store) (loc : Location) : Option Entry :=
  if loc.isAlwaysThere then some .directory else st.entries.lookup loc

/-- Puts an entry at a location, in place of one that is there. -/
def put (st : Store) (loc : Location) (e : Entry) : Store :=
  ⟨st.entries.filter (·.1 != loc) ++ [(loc, e)]⟩

/-- A name longer than a file system takes. -/
def isTooLong (name : String) : Bool := 255 < name.utf8ByteSize

/-- A path longer than a file system takes. -/
def isLongPath (p : Path) : Bool := 4095 < p.text.utf8ByteSize

/-- Follows parts from a directory; all but the last must lead to a directory. -/
def walk (st : Store) (loc : Location) : List String → Except FileCause Location
  | [] => .ok loc
  | part :: parts =>
    match st.at? loc with
    | none => .error .absent
    | some (.file _) => .error .notDirectory
    | some .directory =>
      if part = ".." then walk st loc.up parts
      else if isTooLong part then .error .nameTooLong
      else walk st (loc ++ [part]) parts

def locate (st : Store) (p : Path) : Except FileCause Location :=
  if p.text.toList.contains '\x00' then .error .zeroCharacter
  else if isLongPath p then .error .nameTooLong
  else if p.isAbsolute then walk st [p.root] p.parts
  else walk st [] p.parts

def find (st : Store) (p : Path) : Except FileCause (Location × Entry) := do
  let loc ← st.locate p
  match st.at? loc with
  | some e => .ok (loc, e)
  | none => .error .absent

/-- A path leads to an entry; a name that is too long is not looked up. -/
def lookup? (st : Store) (p : Path) : Except FileFault (Option Entry) :=
  match st.find p with
  | .ok (_, e) => .ok (some e)
  | .error .nameTooLong => .error ⟨.nameTooLong, p⟩
  | .error _ => .ok none

def has (st : Store) (p : Path) : Except FileFault Bool := (st.lookup? p).map (·.isSome)

def hasFile (st : Store) (p : Path) : Except FileFault Bool :=
  (st.lookup? p).map fun
    | some (.file _) => true
    | _ => false

def hasDirectory (st : Store) (p : Path) : Except FileFault Bool :=
  (st.lookup? p).map fun
    | some .directory => true
    | _ => false

def read (st : Store) (p : Path) : Except FileFault Bytes :=
  match st.find p with
  | .ok (_, .file content) => .ok content
  | .ok (_, .directory) => .error ⟨.isDirectory, p⟩
  | .error cause => .error ⟨cause, p⟩

/-- Where a file can be written: a place in a directory that no directory has. -/
def target (st : Store) (p : Path) : Except FileFault (Location × Bytes) :=
  match st.locate p with
  | .error cause => .error ⟨cause, p⟩
  | .ok loc =>
    match st.at? loc with
    | some .directory => .error ⟨.isDirectory, p⟩
    | some (.file content) => .ok (loc, content)
    | none => .ok (loc, [])

def write (st : Store) (p : Path) (content : Bytes) : Except FileFault Store := do
  let (loc, _) ← st.target p
  .ok (st.put loc (.file content))

/-- Adds to the end of a file, which is made if it is not there. -/
def append (st : Store) (p : Path) (content : Bytes) : Except FileFault Store := do
  let (loc, old) ← st.target p
  .ok (st.put loc (.file (old ++ content)))

def makeDirectory (st : Store) (p : Path) : Except FileCause Store := do
  let loc ← st.locate p
  match st.at? loc with
  | some _ => .error .exists
  | none => .ok (st.put loc .directory)

/-- Makes the directory of some parts and those it needs above it, the innermost missing one
last; `back` holds the parts from the last one on. A directory that is there stays. -/
def makeParts (root : String) : List String → Attempt FileFault Store Unit
  | [] => pure ()
  | part :: back => do
    let p : Path := ⟨root, (part :: back).reverse⟩
    let make : Attempt FileCause Store Unit := .change fun st => st.makeDirectory p
    let unlessThere (cause : FileCause) : Attempt FileFault Store Unit := do
      match (← get).hasDirectory p with
      | .ok true => pure ()
      | _ => throw ⟨cause, p⟩
    match ← make.outcome with
    | .ok () => pure ()
    | .error .absent =>
      makeParts root back
      match ← make.outcome with
      | .ok () => pure ()
      | .error cause => unlessThere cause
    | .error cause => unlessThere cause

def makeDirectories (p : Path) : Attempt FileFault Store Unit := makeParts p.root p.parts.reverse

def names (st : Store) (loc : Location) : List String :=
  st.entries.filterMap fun (l, _) => if l.dropLast = loc then l.getLast? else none

/-- The names directly in the directory at a path, if it is one. -/
def namesIn (st : Store) (p : Path) : List String :=
  match st.find p with
  | .ok (loc, .directory) => st.names loc
  | _ => []

theorem at?_put_self (st : Store) {loc : Location} (e : Entry) (h : loc.isAlwaysThere = false) :
    (st.put loc e).at? loc = some e := by
  have hl : ∀ es : List (Location × Entry),
      List.lookup loc (es.filter (·.1 != loc) ++ [(loc, e)]) = some e := by
    intro es
    induction es with
    | nil => simp
    | cons x xs ih =>
      obtain ⟨l, d⟩ := x
      by_cases hx : l = loc
      · simpa [hx] using ih
      · have h' : (loc == l) = false := by simpa using fun e => hx e.symm
        simp [hx, List.lookup_cons, h', ih]
  simpa [at?, put, h] using hl st.entries

end Store

end Walkthrough
