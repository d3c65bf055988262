import Walkthrough.Url
import Walkthrough.Url.Query
/-!
URLs of an app's routes: dynamic segments filled, the tour flag set, paths compared.
-/

namespace Walkthrough

/-- What stands for a dynamic segment in a visited URL. -/
def sampleSegment : String := "tour-sample"

def tourFlag : List Char := "tour".toList

/-- `[name]` with one or two brackets at either end. -/
def isBracketed : List Char → Bool
  | '[' :: r =>
    !(r.takeWhile (· != ']')).isEmpty &&
      (r.dropWhile (· != ']') == [']'] || r.dropWhile (· != ']') == [']', ']'])
  | _ => false

/-- `:name`. -/
def isColonName : List Char → Bool
  | ':' :: r => isVariable r
  | _ => false

def isDynamic (s : List Char) : Bool := upToLineFeed (fun t => isBracketed t || isColonName t) s

/-- A path with something in place of its dynamic segments. -/
def fillSegments (path : String) (sample : String := sampleSegment) : String :=
  "/".intercalate ((path.pieces '/').map fun s => if isDynamic s.toList then sample else s)

/-- The URL with the tour flag set once, behind the rest of its query. -/
def flagTour (url : String) : Except Fault String := do
  let u ← Url.parse url
  let rest := (Url.pairs u.query).filter (·.1 != tourFlag)
  .ok { u with query := Url.ofPairs (rest ++ [(tourFlag, ['1'])]) }.text

def routeUrl (base path : String) (tourMode : Bool := true) : Except Fault String :=
  let url := base.withoutFinalSlashes ++ fillSegments path
  if tourMode then flagTour url else .ok url

/-- A URL leads to a path, final slashes apart. -/
def leadsTo (url path : String) : Except Fault Bool := do
  let u ← Url.parse url
  .ok (Text.stripEnd (· == '/') u.path == Text.stripEnd (· == '/') path.toList)

end Walkthrough
