import Walkthrough.Number
/-!
Tours: what a step does, what may go with any step, and a tour as a list of steps. The parts of a
step are of given types, since a document made by hand may hold anything in their places.
-/

namespace Walkthrough

/-- When a step's capture is made. -/
inductive Moment where
  | before
  | after
  deriving DecidableEq, Repr

namespace Moment

def word : Moment → String
  | before => "before"
  | after => "after"

def ofWord? (w : String) : Option Moment := [before, after].find? (·.word == w)

end Moment

/-- What a step does, with texts, flags and times of given types. -/
inductive ActionOf (τ φ ν : Type) where
  | narration (message : τ)
  | goto (routeKey : τ)
  | click (label anchor : τ) (timeout : Option ν)
  | fill (label anchor : τ) (value envName : Option τ) (timeout : Option ν)
  | waitForEvent (label event : τ) (timeout : Int)
  | expectVisible (label anchor : τ) (timeout : Int)
  | waitMs (duration : Int)
  | screenshot (name : τ) (label : Option τ) (fullPage : Option φ)
  | annotate (label instructions : τ) (target : Option τ)
  deriving DecidableEq, Repr

/-- A screenshot made before or after a step's action. -/
structure CaptureOf (τ φ μ : Type) where
  moment : μ
  name : τ
  fullPage : Option φ := none
  deriving DecidableEq, Repr

/-- What to mark on a screenshot: the one named, or the last one made. -/
structure MarkupOf (τ : Type) where
  instructions : τ
  target : Option τ := none
  deriving DecidableEq, Repr

/-- What may go with any step. -/
structure ExtrasOf (τ φ ν μ : Type) where
  preDelay : Option ν := none
  narration : Option τ := none
  capture : Option (CaptureOf τ φ μ) := none
  markup : Option (MarkupOf τ) := none
  deriving DecidableEq, Repr

/-- One step. -/
structure StepOf (τ φ ν μ : Type) where
  action : ActionOf τ φ ν
  extras : ExtrasOf τ φ ν μ := {}
  deriving DecidableEq, Repr

abbrev Action := ActionOf String Bool Number

abbrev Capture := CaptureOf String Bool Moment

abbrev Markup := MarkupOf String

abbrev Extras := ExtrasOf String Bool Number Moment

abbrev Step := StepOf String Bool Number Moment

/-- A tour. -/
structure Tour where
  id : String
  description : Option String := none
  steps : List Step
  deriving DecidableEq, Repr

/-- The time a wait may take when a step states none, in milliseconds. -/
def defaultTimeout : Int := 10000

namespace ActionOf

variable {τ φ ν τ' φ' ν' : Type}

def kind : ActionOf τ φ ν → String
  | narration .. => "narration"
  | goto .. => "goto"
  | click .. => "click"
  | fill .. => "fill"
  | waitForEvent .. => "waitForEvent"
  | expectVisible .. => "expectVisible"
  | waitMs .. => "waitMs"
  | screenshot .. => "screenshot"
  | annotate .. => "annotate"

/-- The action's label, if it has one. -/
def label? : ActionOf τ φ ν → Option τ
  | click l .. => some l
  | fill l .. => some l
  | waitForEvent l .. => some l
  | expectVisible l .. => some l
  | screenshot _ l _ => l
  | annotate l .. => some l
  | _ => none

/-- The event or the screenshot that the action names. -/
def name? : ActionOf τ φ ν → Option τ
  | waitForEvent _ e _ => some e
  | screenshot n .. => some n
  | _ => none

def anchor? : ActionOf τ φ ν → Option τ
  | click _ a _ => some a
  | fill _ a .. => some a
  | expectVisible _ a _ => some a
  | _ => none

def route? : ActionOf τ φ ν → Option τ
  | goto k => some k
  | _ => none

/-- The action with its parts mapped, if all of them can be. -/
def mapM {ε : Type} (text : τ → Except ε τ') (flag : φ → Except ε φ') (time : ν → Except ε ν') :
    ActionOf τ φ ν → Except ε (ActionOf τ' φ' ν')
  | narration m => return narration (← text m)
  | goto k => return goto (← text k)
  | click l a t => return click (← text l) (← text a) (← t.mapM time)
  | fill l a v e t =>
    return fill (← text l) (← text a) (← v.mapM text) (← e.mapM text) (← t.mapM time)
  | waitForEvent l e t => return waitForEvent (← text l) (← text e) t
  | expectVisible l a t => return expectVisible (← text l) (← text a) t
  | waitMs d => return waitMs d
  | screenshot n l f => return screenshot (← text n) (← l.mapM text) (← f.mapM flag)
  | annotate l i t => return annotate (← text l) (← text i) (← t.mapM text)

def map (text : τ → τ') (flag : φ → φ') (time : ν → ν') : ActionOf τ φ ν → ActionOf τ' φ' ν'
  | narration m => narration (text m)
  | goto k => goto (text k)
  | click l a t => click (text l) (text a) (t.map time)
  | fill l a v e t => fill (text l) (text a) (v.map text) (e.map text) (t.map time)
  | waitForEvent l e t => waitForEvent (text l) (text e) t
  | expectVisible l a t => expectVisible (text l) (text a) t
  | waitMs d => waitMs d
  | screenshot n l f => screenshot (text n) (l.map text) (f.map flag)
  | annotate l i t => annotate (text l) (text i) (t.map text)

end ActionOf

end Walkthrough
