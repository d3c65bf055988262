import Walkthrough.Identifier
import Walkthrough.Text.Sorted
/-!
Anchors in the source of an app: which quoted texts a scan looks for, and what it keeps of the
lines it finds.
-/

namespace Walkthrough.Scan

def defaultDirectories : List String := ["app", "components", "lib", "src"]

/-- A quote of any of three kinds. -/
def isQuote (c : Char) : Bool := c == '"' || c == '\'' || c == '\x60'

/-- The ends of file names that are no anchors. -/
def fileSuffixes : List String := [".json", ".md", ".ts", ".tsx", ".js", ".jsx", ".mjs", ".css"]

/-- A text that ends like a file's name; a line feed may follow. -/
def isFileName (s : List Char) : Bool :=
  upToLineFeed (fun t => fileSuffixes.any fun x => x.toList.isSuffixOf t) s

/-- What a line of a scan's output holds, without quotes. -/
def token? (line : List Char) : Option (List Char) :=
  match Text.trim line with
  | [] => none
  | t => some (Text.strip isQuote t)

/-- A token that is neither an event nor a file's name. -/
def isKept (t : List Char) : Bool := !eventLead.toList.isPrefixOf t && !isFileName t

/-- The anchors in a scan's output, each once, in order. -/
def anchors (output : String) : List String :=
  Text.sortedSet ((((Text.lines output.toList).filterMap token?).filter isKept).map String.ofList)

/-- The longest run of a dot and an anchor's part, at least one: what it holds and what follows. -/
def parts : Nat → List Char → Option (List Char × List Char)
  | 0, _ => none
  | fuel + 1, '.' :: r =>
    match r.takeWhile isPartChar with
    | [] => none
    | p =>
      let rest := r.dropWhile isPartChar
      match parts fuel rest with
      | some (more, rest') => some ('.' :: p ++ more, rest')
      | none => some ('.' :: p, rest)
  | _ + 1, _ => none

/-- A quoted anchor at the start of a text, and what follows it. The quotes may differ. -/
def quotedAnchor? (s : List Char) : Option (List Char × List Char) :=
  match s with
  | q :: r =>
    if isQuote q && "tour".toList.isPrefixOf r then
      match parts (r.length + 1) (r.drop 4) with
      | some (p, q' :: rest) =>
        if isQuote q' && 2 ≤ p.count '.' then some (q :: "tour".toList ++ p ++ [q'], rest) else none
      | _ => none
    else none
  | [] => none

end Walkthrough.Scan
