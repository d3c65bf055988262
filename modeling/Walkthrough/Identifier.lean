import Walkthrough.Text.Lines
/-!
The names a tour is made of: anchors, events, tour ids, screenshot names and variables.
-/

namespace Walkthrough

/-- An ASCII letter or digit. -/
def isAlnum (c : Char) : Bool :=
  ('A' ≤ c && c ≤ 'Z') || ('a' ≤ c && c ≤ 'z') || ('0' ≤ c && c ≤ '9')

def isPartChar (c : Char) : Bool := isAlnum c || c == '_' || c == '-'

def isNameChar (c : Char) : Bool := isPartChar c || c == '.'

/-- At least one character, all of one kind. -/
def allOf (p : Char → Bool) (s : List Char) : Bool := !s.isEmpty && s.all p

/-- `tour` and at least two further parts, joined by dots. -/
def isAnchorOf (part : Char → Bool) (s : List Char) : Bool :=
  match Text.pieces '.' s with
  | root :: a :: b :: parts => root == "tour".toList && (a :: b :: parts).all (allOf part)
  | _ => false

def isAnchor (s : List Char) : Bool := isAnchorOf isPartChar s

/-- What every event's name starts with. -/
def eventLead : String := "tour.event."

def isEvent (s : List Char) : Bool :=
  eventLead.toList.isPrefixOf s && allOf isNameChar (s.drop eventLead.length)

def isTourId : List Char → Bool
  | c :: r => isAlnum c && r.all isNameChar
  | [] => false

def isShotName (s : List Char) : Bool := allOf isNameChar s

/-- A letter or an underscore. -/
def isVariableStart (c : Char) : Bool := (isAlnum c && !('0' ≤ c && c ≤ '9')) || c == '_'

def isVariable : List Char → Bool
  | c :: r => isVariableStart c && r.all fun d => isAlnum d || d == '_'
  | [] => false

/-- A text of some form that may have one line feed behind it. -/
def upToLineFeed (form : List Char → Bool) (s : List Char) : Bool :=
  form s || (s.getLast? == some '\n' && form s.dropLast)

/-- The words by which an anchor finds its element in a page. -/
def selectorOf (anchor : String) : String := "[data-tour=\"" ++ anchor ++ "\"]"

end Walkthrough
