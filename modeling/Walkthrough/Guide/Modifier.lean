import Walkthrough.Guide.Directive
import Walkthrough.Tour
/-!
Modifiers: what a clause behind a directive adds to its step.
-/

namespace Walkthrough.Guide

/-- A modifier as it is written; a number is still digits. -/
inductive Modifier where
  | preDelay (digits : List Char)
  | narration (text : List Char)
  | capture (moment : Moment) (name : List Char) (fullPage : Option Bool)
  | annotate (instructions : List Char)
  deriving DecidableEq, Repr

namespace Modifier

/-- A text between a quote at the start and one at the end, on one line and not empty. -/
def quoted? (s : List Char) : Option (List Char) :=
  match s with
  | '"' :: r =>
    match r.reverse with
    | '"' :: c :: back => if (c :: back).contains '\n' then none else some (c :: back).reverse
    | _ => none
  | _ => none

/-- `predelay:<digits>`. -/
def preDelay? (s : List Char) : Option Modifier := do
  preDelay <$> digitsToEnd? (← after? "predelay:" s)

/-- `narration:"<text>"`. -/
def narration? (s : List Char) : Option Modifier := do
  narration <$> quoted? (← after? "narration:" s)

/-- `annotate:"<text>"`. -/
def annotate? (s : List Char) : Option Modifier := do
  annotate <$> quoted? (← after? "annotate:" s)

/-- `capture:<before|after>:<name>` with an optional `:fullPage=<flag>`. -/
def capture? (s : List Char) : Option Modifier := do
  let r ← after? "capture:" s
  let (moment, r) ← ((after? "before:" r).map (Moment.before, ·)).or
    ((after? "after:" r).map (Moment.after, ·))
  let (name, r) ← run? isNameChar r
  match r with
  | [] => some (capture moment name none)
  | _ => do
    let flag ← Directive.flag? (← after? ":fullPage=" r)
    some (capture moment name (some flag))

def forms : List (List Char → Option Modifier) := [preDelay?, narration?, capture?, annotate?]

def ofText? (s : List Char) : Option Modifier := forms.findSome? (· s)

/-- What a clause says it is: the part before its first colon. -/
def key (s : List Char) : List Char := s.takeWhile (· != ':')

end Modifier

end Walkthrough.Guide
