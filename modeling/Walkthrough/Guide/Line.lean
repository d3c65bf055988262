import Walkthrough.Text.Lines
/-!
The lines of a guide that say something, with where they stand, and the guide's title.
-/

namespace Walkthrough.Guide

/-- A line of a guide without white space at its ends. -/
structure Line where
  source : String
  number : Int
  text : String
  deriving DecidableEq, Repr

/-- A blank line or a comment. -/
def isSilent (s : List Char) : Bool :=
  match s with
  | [] => true
  | c :: _ => c == '#'

/-- The lines of a text, trimmed and numbered from one. -/
def numbered (text : String) : List (Nat × List Char) :=
  (Text.lines text.toList).zipIdx.map fun p => (p.2 + 1, Text.trim p.1)

def readLines (text source : String) : List Line :=
  ((numbered text).filter fun p => !isSilent p.2).map fun p => ⟨source, p.1, String.ofList p.2⟩

def heading? : List Char → Option (List Char)
  | '#' :: ' ' :: r =>
    match Text.trim r with
    | [] => none
    | t => some t
  | _ => none

/-- The first heading of a text. -/
def title? (text : String) : Option String :=
  (numbered text).findSome? fun p => (heading? p.2).map String.ofList

end Walkthrough.Guide
