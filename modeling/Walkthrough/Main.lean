import Walkthrough.CommandLine
/-!
The program: it reads the files that a command's arguments name, does the command on them, and
writes the files that have changed. No browser can be driven from here, so that a command which
needs one ends with the words for a browser that does not start.
-/

namespace Walkthrough.Program

open CommandLine

/-- A directory or a file and everything below it, as it is on disk. -/
partial def readTree (st : Store) (loc : Location) (place : String) : IO Store := do
  let here := (← IO.currentDir) / place
  if ← here.isDir then
    let st := if loc.isAlwaysThere then st else st.put loc .directory
    (← here.readDir).foldlM (fun st e => readTree st (loc ++ [e.fileName]) e.path.toString) st
  else if ← here.pathExists then
    return st.put loc (.file (← IO.FS.readBinFile here).toList)
  else return st

/-- The directories above a path, and everything at it. -/
def readPath (st : Store) (p : Path) : IO Store := do
  let above (st : Store) (n : Nat) : IO Store := do
    let q : Path := ⟨p.root, p.parts.take n⟩
    let loc := Location.of q
    let here := (← IO.currentDir) / q.text
    if loc.isAlwaysThere || !(← here.pathExists) then return st
    if ← here.isDir then return st.put loc .directory
    return st.put loc (.file (← IO.FS.readBinFile here).toList)
  let st ← (List.range p.parts.length).foldlM above st
  readTree st (Location.of p) p.text

/-- Writes the entries of a store that another does not have. -/
def writeChanges (old new : Store) : IO Unit := do
  for (loc, e) in new.entries do
    if old.at? loc = some e then continue
    let p : Path := match loc with
      | "/" :: parts => ⟨"/", parts⟩
      | "//" :: parts => ⟨"//", parts⟩
      | parts => ⟨"", parts⟩
    match e with
    | .directory => IO.FS.createDirAll p.text
    | .file content => IO.FS.writeBinFile p.text (ByteArray.mk content.toArray)

def readVariables : IO EnvFile.Variables := do
  let bytes ← try IO.FS.readBinFile "/proc/self/environ" catch _ => pure ByteArray.empty
  let text := String.ofList (Text.Utf8.decodeLossy bytes.toList)
  return (text.pieces '\x00').filterMap fun v =>
    match v.pieces '=' with
    | name :: value :: more => some (name, "=".intercalate (value :: more))
    | _ => none

def noPage : Page Int Unit where
  answer _ s := (.error .notStarted, s)
  clock s := (.error .notStarted, s)

/-- A browser that does not start. -/
def noBrowser : Browser Unit where
  answer _ s := (.error (.page .browser "no browser can be driven from this program"), s)

def surroundings : IO (Surroundings Int Unit) := do
  return {
    directory := (← IO.currentDir).toString, process := ← readVariables, page := noPage
    timing := Timing.exact, session := noBrowser.session, search := none, engine := none
    date := "", stamp := "" }

def usage (c : Command) : String :=
  let flag (f : Flag) := " [" ++ f.names.headD "" ++ (if f.takesValue then " ..." else "") ++ "]"
  "usage: " ++ c.name ++ String.join (c.form.flags.map flag) ++
    ((c.form.operand.map (" " ++ ·)).getD "") ++ "\n"

def runCommand (c : Command) (a : Arguments) : IO UInt32 := do
  let s ← surroundings
  let files ← (places s a).foldlM readPath Store.empty
  let (o, scene) := outcome s c a { page := (), files := files }
  writeChanges files scene.files
  (← IO.getStdout).putStr o.output
  (← IO.getStderr).putStr o.errors
  match o.ended with
  | .ok code => return code.toUInt32
  | .error f =>
    (← IO.getStderr).putStr (f.message ++ "\n")
    return 1

def run (args : List String) : IO UInt32 := do
  let commands := ", ".intercalate (Command.all.map (·.name))
  match args with
  | name :: args =>
    match Command.ofName? name with
    | some c =>
      match c.form.read args with
      | .ok a => runCommand c a
      | .error u =>
        let out ← match u with
          | .help => IO.getStdout
          | .wrong => IO.getStderr
        out.putStr (usage c)
        return u.code.toUInt32
    | none =>
      (← IO.getStderr).putStr ("commands: " ++ commands ++ "\n")
      return 2
  | [] =>
    (← IO.getStderr).putStr ("commands: " ++ commands ++ "\n")
    return 2

end Walkthrough.Program

/-- The program: the name of a command and its arguments. -/
def main (args : List String) : IO UInt32 := Walkthrough.Program.run args
