import Walkthrough.Scan
import Walkthrough.Scene
/-!
The scan of an app's source, which a search program does. Without one, or without anything to
search, nothing is found.
-/

namespace Walkthrough.Scan

/-- How a search ends: it does not start, or it gives what it found, its errors and a code. -/
inductive SearchEnd where
  | broken (reason : String)
  | ended (found errors : String) (code : Int)
  deriving DecidableEq, Repr

/-- A search program, if there is one: how a search of some places ends. -/
abbrev Search := Option (List String → SearchEnd)

def targets (root : Path) (directories : List String) (st : Store) :
    Except Fault (List String) := do
  let places := directories.map fun d => root.join (.ofString d)
  let there ← places.filterM fun p => (st.has p).mapError .file
  return there.map Path.text

/-- How many characters of a search's errors are shown. -/
def shownErrors : Nat := 300

def source {σ : Type} (search : Search) (root : Path) (directories : List String) :
    Act σ (List String) := do
  let warn := Act.log .warning .crawler
  match search with
  | none =>
    warn "ripgrep (rg) not found; static anchor scan skipped"
    return []
  | some run =>
    match ← Act.look (targets root directories) with
    | [] =>
      warn s!"No source directories found under {root}; static anchor scan skipped"
      return []
    | places =>
      match run places with
      | .broken reason =>
        warn s!"Static anchor scan failed to start: {reason}"
        return []
      | .ended found errors code =>
        if 1 < code then
          let shown := String.ofList ((Text.trim errors.toList).take shownErrors)
          warn s!"Static anchor scan reported errors: {shown}"
        return anchors found

end Walkthrough.Scan
