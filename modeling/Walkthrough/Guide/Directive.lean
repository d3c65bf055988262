import Walkthrough.Guide.Scan
/-!
The forms of a directive. Each form is a reader of whole texts; a text is the directive of the
first form that reads it.
-/

namespace Walkthrough.Guide

open Text (isBlank)

/-- What a fill writes: a given text, or the value of a variable. -/
inductive FillSource where
  | value (text : List Char)
  | variable_ (name : List Char)
  deriving DecidableEq, Repr

/-- A directive as it is written; numbers are still digits. -/
inductive Directive where
  | narration (message : List Char)
  | goto (routeKey : List Char)
  | click (label anchor : List Char)
  | fill (label anchor : List Char) (source : FillSource)
  | waitForEvent (label event : List Char) (timeout : Option (List Char))
  | expectVisible (label anchor : List Char) (timeout : Option (List Char))
  | waitMs (digits : List Char)
  | screenshot (name : List Char) (label : Option (List Char)) (fullPage : Option Bool)
  | annotate (label target : Option (List Char)) (instructions : List Char)
  | includeFragment (name : List Char)
  deriving DecidableEq, Repr

namespace Directive

/-- A message behind a word and optional white space. -/
def messageAfter? (word : String) (s : List Char) : Option (List Char) := do
  closing? ((← after? word s).dropWhile isBlank)

/-- `Narration: <message>` or `Say: <message>`. -/
def narration? (s : List Char) : Option Directive :=
  ((messageAfter? "Narration:" s).or (messageAfter? "Say:" s)).map narration

/-- Text without white space up to the end. -/
def wordToEnd? (s : List Char) : Option (List Char) :=
  match run? (!isBlank ·) (s.dropWhile isBlank) with
  | some (w, []) => some w
  | _ => none

/-- `Goto routeKey: <key>`. -/
def goto? (s : List Char) : Option Directive := do
  let r ← after? "routeKey:" (← afterBlanks? (← after? "Goto" s))
  goto <$> wordToEnd? r

/-- `Include fragment: <name>`. -/
def includeFragment? (s : List Char) : Option Directive := do
  let r ← after? "fragment:" (← afterBlanks? (← after? "Include" s))
  includeFragment <$> wordToEnd? r

def anchorToEnd? (s : List Char) : Option (List Char) :=
  match parenthesized? isAnchor s with
  | some (a, []) => some a
  | _ => none

/-- `Click <label> (<anchor>)`. -/
def click? (s : List Char) : Option Directive := do
  let (l, a) ← labelled anchorToEnd? (← after? "Click" s)
  some (click l a)

/-- `value:<text>` or `env:<NAME>` up to the end. -/
def fillSource? (s : List Char) : Option FillSource :=
  match after? "value:" s with
  | some r => FillSource.value <$> closing? r
  | none => do
    let r ← after? "env:" s
    if isVariable r then some (.variable_ r) else none

/-- An anchor in parentheses and what to write there. -/
def anchorAndSource? (s : List Char) : Option (List Char × FillSource) := do
  let (a, r) ← parenthesized? isAnchor s
  let source ← fillSource? (← afterBlanks? r)
  some (a, source)

/-- `Fill <label> (<anchor>) value:<text>` or `… env:<NAME>`. -/
def fill? (s : List Char) : Option Directive := do
  let (l, a, source) ← labelled anchorAndSource? (← after? "Fill" s)
  some (fill l a source)

/-- Two characters are one letter, apart from case; `fold` is a small ASCII letter or no letter.
Four letters outside ASCII are cases of `i`, `k` and `s`. -/
def sameLetter (fold c : Char) : Bool :=
  c.toLower == fold || (fold == 'i' && (c == '\u0130' || c == '\u0131')) ||
    (fold == 'k' && c == '\u212A') ||
    (fold == 's' && c == '\u017F')

/-- What follows a word at the start of a text in letters of any case. -/
def afterAnyCase? (word : List Char) (s : List Char) : Option (List Char) :=
  match word, s with
  | [], s => some s
  | w :: ws, c :: r => if sameLetter w c then afterAnyCase? ws r else none
  | _ :: _, [] => none

/-- Nothing, or `timeout:<digits>` behind white space, up to the end. -/
def timeoutToEnd? (word : List Char → Option (List Char)) (s : List Char) :
    Option (Option (List Char)) :=
  match s with
  | [] => some none
  | _ => do some (some (← digitsToEnd? (← word (← afterBlanks? s))))

def nameAndTimeout? (form : List Char → Bool) (word : List Char → Option (List Char))
    (s : List Char) : Option (List Char × Option (List Char)) := do
  let (name, r) ← parenthesized? form s
  let timeout ← timeoutToEnd? word r
  some (name, timeout)

/-- `Wait for <label> (<event>)` with an optional timeout. -/
def waitForEvent? (s : List Char) : Option Directive := do
  let r ← after? "for" (← afterBlanks? (← after? "Wait" s))
  let (l, e, timeout) ← labelled (nameAndTimeout? isEvent (after? "timeout:")) r
  some (waitForEvent l e timeout)

/-- A character of an anchor's part, or one that a letter of another case can stand for. -/
def isPartCharAnyCase (c : Char) : Bool :=
  isPartChar c || c == '\u0130' || c == '\u0131' || c == '\u017F' || c == '\u212A'

def isAnchorAnyCase (s : List Char) : Bool :=
  match Text.pieces '.' s with
  | root :: a :: b :: parts =>
    afterAnyCase? "tour".toList root == some [] &&
      (a :: b :: parts).all (allOf isPartCharAnyCase)
  | _ => false

/-- `Expect visible <label> (<anchor>)` with an optional timeout, in letters of any case. -/
def expectVisible? (s : List Char) : Option Directive := do
  let r ← afterBlanks? (← afterAnyCase? "expect".toList s)
  let r ← afterAnyCase? "visible".toList r
  let form := nameAndTimeout? isAnchorAnyCase (afterAnyCase? "timeout:".toList)
  let (l, a, timeout) ← labelled form r
  some (expectVisible l a timeout)

/-- `Wait <digits>ms`. -/
def waitMs? (s : List Char) : Option Directive := do
  let (ds, r) ← run? Text.isDigit (← afterBlanks? (← after? "Wait" s))
  if r.dropWhile isBlank = ['m', 's'] then some (waitMs ds) else none

/-- `true` or `false`. -/
def flag? (s : List Char) : Option Bool :=
  if s = "true".toList then some true else if s = "false".toList then some false else none

/-- A screenshot's name and flag, behind white space, up to the end. -/
def nameAndFlag? (s : List Char) : Option (List Char × Option Bool) := do
  let (name, r) ← run? isNameChar (← after? "name:" (← afterBlanks? s))
  match r with
  | [] => some (name, none)
  | _ => do
    let flag ← flag? (← after? "fullPage:" (← afterBlanks? r))
    some (name, some flag)

/-- `Screenshot [<label>] name:<name> [fullPage:<flag>]`, also with `Snapshot`. -/
def screenshot? (s : List Char) : Option Directive := do
  let r ← (after? "Screenshot" s).or (after? "Snapshot" s)
  match labelled nameAndFlag? r with
  | some (l, name, flag) => some (screenshot name (some l) flag)
  | none => do
    let (name, flag) ← nameAndFlag? r
    some (screenshot name none flag)

/-- `instructions: <text>` behind white space, up to the end. -/
def instructions? (s : List Char) : Option (List Char) := do
  messageAfter? "instructions:" (← afterBlanks? s)

/-- An optional `target:<name>` and the instructions, behind white space, up to the end. -/
def targetAndInstructions? (s : List Char) : Option (Option (List Char) × List Char) :=
  let targeted := do
    let (t, r) ← run? isNameChar (← after? "target:" (← afterBlanks? s))
    let i ← instructions? r
    some (some t, i)
  targeted.or ((instructions? s).map (none, ·))

/-- `Annotate [<label>] [target:<name>] instructions: <text>`. -/
def annotate? (s : List Char) : Option Directive := do
  let r ← after? "Annotate" s
  match targetAndInstructions? r with
  | some (target, i) => some (annotate none target i)
  | none => do
    let (l, target, i) ← labelled targetAndInstructions? r
    some (annotate (some l) target i)

def forms : List (List Char → Option Directive) :=
  [narration?, goto?, click?, fill?, waitForEvent?, expectVisible?, waitMs?, screenshot?,
    annotate?, includeFragment?]

def ofText? (s : List Char) : Option Directive := forms.findSome? (· s)

end Directive

/-- What a line that starts like a directive should look like. -/
def hints : List (String × String) :=
  [("Click ", "Click step needs an anchor. " ++
      "Use: Click <label> (tour.<domain>.<component>.<element>)"),
    ("Fill ", "Fill step needs an anchor and value:<text> or env:<NAME>. " ++
      "Use: Fill <label> (tour....) env:E2E_EMAIL"),
    ("Wait for ", "Wait for step needs an event. " ++
      "Use: Wait for <label> (tour.event....) timeout:30000"),
    ("Wait ", "Wait step must be: Wait <ms>ms"),
    ("Expect ", "Expect step must be: Expect visible <label> (tour....) [timeout:<ms>]"),
    ("Screenshot", "Screenshot step needs name:<name>"),
    ("Snapshot", "Snapshot step needs name:<name>"),
    ("Annotate", "Annotate step needs instructions:<text>"),
    ("Goto", "Goto step must be: Goto routeKey: <key>"),
    ("Include", "Include must be: Include fragment: <name>")]

/-- The hint for a text that is no directive. -/
def hint? (s : List Char) : Option String :=
  (hints.find? fun h => h.1.toList.isPrefixOf s).map (·.2)

end Walkthrough.Guide
