import Walkthrough.Schema
/-!
The format of a tour's document.
-/

namespace Walkthrough.Tour

def captureFormat : Schema := .rules [
  .kind .object,
  .required ["when", "name"],
  .properties [
    ("when", .rules [.oneAmong ["before", "after"]]),
    ("name", .rules [.kind .string, .nonEmpty]),
    ("fullPage", .rules [.kind .boolean])],
  .additional ["when", "name", "fullPage"] none]

def markupFormat : Schema := .rules [
  .kind .object,
  .required ["instructions"],
  .properties [
    ("instructions", .rules [.kind .string, .nonEmpty]),
    ("targetScreenshot", .rules [.kind .string])],
  .additional ["instructions", "targetScreenshot"] none]

def textFormat : Schema := .rules [.kind .string]

/-- A text that is not empty. -/
def fullTextFormat : Schema := .rules [.kind .string, .nonEmpty]

def timeFormat : Schema := .rules [.kind .integer, .minimum 0]

def formFormat (p : Pattern) : Schema := .rules [.kind .string, .pattern p]

/-- The members that every step may have. -/
def commonMembers : List (String × Schema) := [
  ("label", textFormat),
  ("preDelayMs", timeFormat),
  ("narration", textFormat),
  ("capture", captureFormat),
  ("annotate", markupFormat)]

/-- The rules for a step: how its kind is told, what it must have, and its own members. -/
def stepRules (kind : Rule) (required : List String) (own : List (String × Schema)) : List Rule :=
  let members := ("type", Schema.rules [kind]) :: commonMembers ++ own
  [.kind .object, .required ("type" :: required), .properties members,
    .additional (members.map (·.1)) none]

/-- The formats of a step, one for each kind. -/
def stepFormats : List Schema := [
  .rules (stepRules (.oneAmong ["narration", "say"]) []
    [("message", textFormat), ("text", textFormat)]),
  .rules (stepRules (.const "goto") ["routeKey"] [("routeKey", fullTextFormat)]),
  .rules (stepRules (.const "click") ["anchor"]
    [("anchor", formFormat .anchor), ("timeoutMs", timeFormat)]),
  .rules (stepRules (.const "fill") ["anchor"]
      [("anchor", formFormat .anchor), ("value", textFormat),
        ("valueEnv", formFormat .envName), ("timeoutMs", timeFormat)] ++
    [.oneOf [.rules [.required ["value"]], .rules [.required ["valueEnv"]]]]),
  .rules (stepRules (.const "waitForEvent") ["name"]
    [("name", formFormat .event), ("timeoutMs", timeFormat)]),
  .rules (stepRules (.const "expectVisible") ["anchor"]
    [("anchor", formFormat .anchor), ("timeoutMs", timeFormat)]),
  .rules (stepRules (.const "waitMs") ["durationMs"]
    [("durationMs", .rules [.kind .integer, .minimum 1])]),
  .rules (stepRules (.oneAmong ["screenshot", "snapshot"]) ["name"]
    [("name", formFormat .shotName), ("fullPage", .rules [.kind .boolean])]),
  .rules (stepRules (.const "annotate") ["instructions"]
    [("instructions", fullTextFormat), ("targetScreenshot", textFormat)])]

def stepFormat : Schema := .rules [.oneOf stepFormats]

def format : Schema := .rules [
  .kind .object,
  .required ["tourId", "steps"],
  .properties [
    ("tourId", formFormat .tourId),
    ("description", textFormat),
    ("steps", .rules [.kind .array, .items stepFormat])],
  .additional ["tourId", "description", "steps"] none]

end Walkthrough.Tour
