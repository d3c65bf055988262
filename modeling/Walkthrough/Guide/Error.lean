import Walkthrough.Schema
import Walkthrough.Path
import Walkthrough.Guide.Line
/-!
What can be wrong with a guide, and where.
-/

namespace Walkthrough.Guide

/-- Why a guide is refused. -/
inductive Reason where
  | nestedFragment
  | noFragments (name : String)
  | unknownFragment (name : String) (directory : Path)
  | unexpandedInclude
  | repeatedModifier (key : String)
  | unknownModifier (clause : String)
  | zeroWait
  | malformed (hint : String)
  | unsupported
  | notATour (complaint : Complaint)

def Reason.message : Reason → String
  | nestedFragment => "Nested fragment includes are not supported"
  | noFragments name => s!"Fragment '{name}' included but no fragments directory is configured"
  | unknownFragment name directory => s!"Fragment not found: {name} (looked in {directory})"
  | unexpandedInclude => "Include lines must be expanded before parsing"
  | repeatedModifier key => s!"Duplicate modifier: {key}"
  | unknownModifier clause => "Unknown modifier: " ++ clause.inQuotes
  | zeroWait => "Wait duration must be > 0ms"
  | malformed hint => s!"Malformed directive. {hint}"
  | unsupported => "Unsupported DSL line"
  | notATour c => "Compiled tour does not match the tour schema: " ++ c.message

/-- A refusal: the reason, the text it comes from and, if it is about a line, that line. -/
structure Refusal where
  reason : Reason
  source : String
  line : Option (Int × String) := none

def Line.refuse (l : Line) (r : Reason) : Refusal := ⟨r, l.source, some (l.number, l.text)⟩

def Refusal.message (r : Refusal) : String :=
  match r.line with
  | none => s!"{r.source}: {r.reason.message}"
  | some (number, text) => s!"{r.source}:{number}: {r.reason.message}\nLine: {text}"

end Walkthrough.Guide
