import Walkthrough.Json.Display
import Walkthrough.Tour
/-!
Cues: steps as documents state them, with JSON values for all their parts. What is said about a step
is read off its cue, and a run plays cues, so that a step made by hand can be played as it stands.
-/

namespace Walkthrough

abbrev Cue := StepOf Json Json Json Json

def Step.cue (s : Step) : Cue where
  action := s.action.map .str .bool .num
  extras := {
    preDelay := s.extras.preDelay.map .num
    narration := s.extras.narration.map .str
    capture := s.extras.capture.map fun c => ⟨.str c.moment.word, .str c.name, c.fullPage.map .bool⟩
    markup := s.extras.markup.map fun m => ⟨.str m.instructions, m.target.map .str⟩ }

def Tour.cues (t : Tour) : List Cue := t.steps.map Step.cue

namespace Cue

/-- The first of some values that counts as there, in words. -/
def firstWords (vs : List (Option Json)) : Option String :=
  (vs.findSome? fun v => v.filter (·.isTruthy)).map Json.words

def describe (c : Cue) : String :=
  (firstWords [c.action.anchor?, c.action.name?, c.action.route?, c.action.label?]).getD ""

/-- What a markup calls the step: its label or its name, or else its place in the tour. -/
def markupLabel (c : Cue) (index : Nat) : String :=
  (firstWords [c.action.label?, c.action.name?]).getD s!"step-{index}"

end Cue

end Walkthrough
