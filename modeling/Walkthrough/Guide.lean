import Walkthrough.Files
import Walkthrough.Guide.Clause
import Walkthrough.Guide.Modifier
/-!
Guides: a text of one directive a line, with fragments in place of the lines that include them,
read into steps.
-/

namespace Walkthrough.Guide

/-- The whole number that digits spell, up to a length. -/
def number (ds : List Char) : Except Fault Nat :=
  if Json.digitLimit < ds.length then .error (.number (.tooLong ds.length))
  else .ok (Text.digitsValue ds)

abbrev str (s : List Char) : String := String.ofList s

def Modifier.apply (x : Extras) : Modifier → Except Fault Extras
  | preDelay ds => do .ok { x with preDelay := some (Number.int (← number ds)) }
  | narration t => .ok { x with narration := some (str t) }
  | capture m n f => .ok { x with capture := some ⟨m, str n, f⟩ }
  | annotate i => .ok { x with markup := some ⟨str i, none⟩ }

/-- What the clauses of a line add to a step, given the keys and the extras before them. -/
def modifiers (l : Line) (seen : List (List Char)) (x : Extras) :
    List (List Char) → Except Fault Extras
  | [] => .ok x
  | c :: cs => do
    let key := Modifier.key c
    if seen.contains key then .error (.refusal (l.refuse (.repeatedModifier (str key)))) else
    match Modifier.ofText? c with
    | none => .error (.refusal (l.refuse (.unknownModifier (str c))))
    | some m => modifiers l (key :: seen) (← m.apply x) cs

/-- The timeout that digits spell, or the usual one. -/
def timeout (ds : Option (List Char)) : Except Fault Int :=
  match ds with
  | none => .ok defaultTimeout
  | some ds => (number ds).map Int.ofNat

def Directive.action (l : Line) : Directive → Except Fault Action
  | narration m => .ok (.narration (str m))
  | goto k => .ok (.goto (str k))
  | click lb a => .ok (.click (str lb) (str a) none)
  | fill lb a (.value v) => .ok (.fill (str lb) (str a) (some (str v)) none none)
  | fill lb a (.variable_ n) => .ok (.fill (str lb) (str a) none (some (str n)) none)
  | waitForEvent lb e t => return .waitForEvent (str lb) (str e) (← timeout t)
  | expectVisible lb a t => return .expectVisible (str lb) (str a) (← timeout t)
  | waitMs ds => do
    match ← number ds with
    | 0 => .error (.refusal (l.refuse .zeroWait))
    | n => .ok (.waitMs n)
  | screenshot n lb f => .ok (.screenshot (str n) (lb.map str) f)
  | annotate lb t i => .ok (.annotate (str (lb.getD [])) (str i) (t.map str))
  | includeFragment _ => .error (.refusal (l.refuse .unexpandedInclude))

/-- Why a text is no directive. -/
def refusalReason (s : List Char) : Reason :=
  match hint? s with
  | some h => .malformed h
  | none => .unsupported

def parseLine (l : Line) : Except Fault Step := do
  match clauses l.text.toList with
  | [] => .error (.refusal (l.refuse .unsupported))
  | base :: rest => do
    let extras ← modifiers l [] {} rest
    match Directive.ofText? base with
    | some d => return ⟨← d.action l, extras⟩
    | none => .error (.refusal (l.refuse (refusalReason base)))

def included? (l : Line) : Option (List Char) :=
  match Directive.includeFragment? l.text.toList with
  | some (.includeFragment name) => some name
  | _ => none

/-- Where a fragment may be: a name without a suffix first with one. -/
def fragmentPaths (directory : Path) (name : String) : List Path :=
  if (Path.ofString name).suffix != "" then [directory / name]
  else [directory / (name ++ ".md"), directory / name]

/-- The first of some paths that has a file. -/
def firstFile? (st : Store) : List Path → Except Fault (Option Path)
  | [] => .ok none
  | p :: ps => do
    if ← (st.hasFile p).mapError .file then return some p
    firstFile? st ps

def loadFragment (st : Store) (directory : Option Path) (l : Line) (name : String) :
    Except Fault (List Line) := do
  match directory with
  | none => .error (.refusal (l.refuse (.noFragments name)))
  | some dir =>
    match ← firstFile? st (fragmentPaths dir name) with
    | none => .error (.refusal (l.refuse (.unknownFragment name dir)))
    | some p => return readLines (← readText st p) p.text

/-- What stands in place of a line: itself, or the fragment it includes. -/
def expandLine (st : Store) (directory : Option Path) (l : Line) : Except Fault (List Line) := do
  match included? l with
  | none => .ok [l]
  | some name =>
    let ls ← loadFragment st directory l (str name)
    match ls.find? fun f => (included? f).isSome with
    | some f => .error (.refusal (f.refuse .nestedFragment))
    | none => .ok ls

/-- The lines of a guide with fragments in place of the lines that include them. -/
def expand (st : Store) (directory : Option Path) (ls : List Line) : Except Fault (List Line) :=
  ls.flatMapM (expandLine st directory)

def parse (st : Store) (directory : Option Path) (source text : String) :
    Except Fault (List Step) := do
  (← expand st directory (readLines text source)).mapM parseLine

end Walkthrough.Guide
