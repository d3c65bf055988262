import Walkthrough.Identifier
import Walkthrough.Text.Digit
/-!
Small readers for the parts of a directive, each giving what it read and the text behind it.
-/

namespace Walkthrough.Guide

open Text (isBlank)

def after? (word : String) (s : List Char) : Option (List Char) :=
  if word.toList.isPrefixOf s then some (s.drop word.length) else none

/-- What follows white space at the start of a text, at least one character of it. -/
def afterBlanks? : List Char → Option (List Char)
  | c :: r => if isBlank c then some (r.dropWhile isBlank) else none
  | [] => none

/-- The longest run of characters of a kind at the start, at least one. -/
def run? (p : Char → Bool) (s : List Char) : Option (List Char × List Char) :=
  match s.takeWhile p with
  | [] => none
  | t => some (t, s.dropWhile p)

/-- A text that closes a line: on one line, and its last character is no white space. -/
def closing? (s : List Char) : Option (List Char) :=
  if !s.contains '\n' && s.getLast?.any (!isBlank ·) then some s else none

/-- All ways to cut a text where what follows has a form, shortest front first. -/
def cuts {α : Type} (form : List Char → Option α) (before : List Char) :
    List Char → List (List Char × α)
  | [] => ((form []).map fun a => (before.reverse, a)).toList
  | c :: r =>
    match form (c :: r) with
    | some a => (before.reverse, a) :: cuts form (c :: before) r
    | none => cuts form (c :: before) r

def label? (front : List Char) : Option (List Char) :=
  match (afterBlanks? front).getD [] with
  | [] => none
  | l => if l.contains '\n' then none else some l

/-- The single blank that stands as a label in a front of nothing but white space. -/
def blankLabel? (front : List Char) : Option (List Char) :=
  match front.reverse with
  | c :: _ :: _ => if front.all isBlank && c != '\n' then some [c] else none
  | _ => none

/-- White space, a label and something of a form up to the end. The shortest label is taken;
where there is only white space, its last character that leaves room for the rest is the label. -/
def labelled {α : Type} (form : List Char → Option α) (s : List Char) : Option (List Char × α) :=
  let all := cuts form [] s
  match all.findSome? fun (front, a) => (label? front).map (·, a) with
  | some found => some found
  | none => all.reverse.findSome? fun (front, a) => (blankLabel? front).map (·, a)

/-- Something of a form in parentheses, with what follows. -/
def parenthesized? (form : List Char → Bool) (s : List Char) :
    Option (List Char × List Char) :=
  match s.dropWhile isBlank with
  | '(' :: r =>
    match r.dropWhile (· != ')') with
    | ')' :: rest =>
      let inner := r.takeWhile (· != ')')
      if form inner then some (inner, rest) else none
    | _ => none
  | _ => none

/-- Whole-number digits up to the end of a text. -/
def digitsToEnd? (s : List Char) : Option (List Char) :=
  match run? Text.isDigit s with
  | some (ds, []) => some ds
  | _ => none

end Walkthrough.Guide
