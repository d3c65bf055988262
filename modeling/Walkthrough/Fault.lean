import Walkthrough.Guide.Error
import Walkthrough.Json.Reader
import Walkthrough.Store
/-!
Everything that can go wrong, by cause, and the words for it.
-/

namespace Walkthrough

/-- What a reference of a step names. -/
inductive ReferenceKind where
  | routeKey
  | event
  | anchor
  deriving DecidableEq, Repr

def ReferenceKind.word : ReferenceKind → String
  | routeKey => "routeKey"
  | event => "event"
  | anchor => "anchor"

/-- A reference that nothing answers to: the steps that hold it and what it may have meant. -/
structure Issue where
  kind : ReferenceKind
  value : String
  steps : List Nat
  suggestions : List String
  deriving DecidableEq, Repr

/-- The words for something unknown: its kind and name, the steps that hold it and what it may have
meant. -/
def describeUnknown (kind value : String) (steps suggestions : List String) : String :=
  let steps := ", ".intercalate steps
  s!"Unknown {kind}: {value} (step {steps})\n  Nearest: " ++
    if suggestions.isEmpty then "(no candidates)" else ", ".intercalate suggestions

def Issue.describe (i : Issue) : String :=
  describeUnknown i.kind.word i.value (i.steps.map toString) i.suggestions

/-- Issues that are already in words, under their number. -/
def listIssues (described : List String) : String :=
  "\n".intercalate (s!"{described.length} validation error(s)" :: described)

def describeIssues (is : List Issue) : String := listIssues (is.map Issue.describe)

/-- A whole number that cannot be had. -/
inductive NumberFault where
  | tooLong (digits : Nat)
  | notWhole (text : String)
  | ofInfinity
  | ofNaN
  | quotientBeyondReal
  deriving DecidableEq, Repr

/-- How many characters of a text that is no number are shown, quotes included. -/
def NumberFault.shownText : Nat := 200

def NumberFault.message : NumberFault → String
  | tooLong digits =>
    s!"Exceeds the limit ({Json.digitLimit} digits) for integer string conversion: " ++
      s!"value has {digits} digits; use sys.set_int_max_str_digits() to increase the limit"
  | notWhole text =>
    "invalid literal for int() with base 10: " ++
      String.ofList (text.inQuotes.toList.take shownText)
  | ofInfinity => "cannot convert float infinity to integer"
  | ofNaN => "cannot convert float NaN to integer"
  | quotientBeyondReal => "integer division result too large for a float"

def Json.kindWord : Json → String
  | null => "NoneType"
  | bool _ => "bool"
  | num (.int _) => "int"
  | num (.real _) => "float"
  | str _ => "str"
  | arr _ => "list"
  | obj _ => "dict"

/-- A value of a kind that cannot be where it is: on a side of an operator, as a key, as a text to
search, or as the name of a variable. -/
inductive KindFault where
  | operands (operator left right : String)
  | unhashable (value : Json)
  | notText (value : Json)
  | notAName (value : Json)
  deriving DecidableEq, Repr

/-- A value as a key, which lists and objects cannot be. -/
def Json.asKey (v : Json) : Except KindFault Json :=
  match v with
  | arr _ | obj _ => .error (.unhashable v)
  | v => .ok v

def Json.asText : Json → Except KindFault String
  | str s => .ok s
  | v => .error (.notText v)

/-- A value as a time, which is divided to count it in seconds. -/
def Json.asTime (v : Json) : Except KindFault Number :=
  match v.number? with
  | some n => .ok n
  | none => .error (.operands "/" v.kindWord "int")

def KindFault.message : KindFault → String
  | operands o l r =>
    "unsupported operand type(s) for " ++ o ++ ": '" ++ l ++ "' and '" ++ r ++ "'"
  | unhashable v => "unhashable type: '" ++ v.kindWord ++ "'"
  | notText v => "expected string or bytes-like object, got '" ++ v.kindWord ++ "'"
  | notAName v => "str expected, not " ++ v.kindWord

/-- What is wrong with a step that is read without its format. -/
inductive StepFault where
  | missing (key : String)
  | unsupported (kind : String)
  | illTyped (value : Json)
  | notWhole (value : Json)
  | noMembers (value : Json)
  deriving DecidableEq, Repr

def StepFault.message : StepFault → String
  | missing key => key.inQuotes
  | unsupported kind => s!"Unsupported step kind: {kind}"
  | illTyped v => s!"{v.shown} is of another kind"
  | notWhole v =>
    "int() argument must be a string, a bytes-like object or a real number, not '" ++
      v.kindWord ++ "'"
  | noMembers (.str _) => "string indices must be integers, not 'str'"
  | noMembers (.arr _) => "list indices must be integers or slices, not str"
  | noMembers v => "'" ++ v.kindWord ++ "' object is not subscriptable"

/-- What is wrong with a URL. -/
inductive UrlFault where
  | brackets
  | future
  | fourInBrackets
  | notAnAddress (host : String)
  | hiddenDelimiter (authority : String)
  deriving DecidableEq, Repr

def UrlFault.message : UrlFault → String
  | brackets => "Invalid IPv6 URL"
  | future => "IPvFuture address is invalid"
  | fourInBrackets => "An IPv4 address cannot be in brackets"
  | notAnAddress host => host.inQuotes ++ " does not appear to be an IPv4 or IPv6 address"
  | hiddenDelimiter a =>
    "netloc " ++ "'" ++ a ++ "' contains invalid characters under NFKC normalization"

/-- What is wrong with a configuration file. -/
inductive ConfigFault where
  | missing (file : Path)
  | notJson (file : Path) (error : Json.ReadError)
  | badShape (file : Path) (complaint : Complaint)
  | repeatedRoute (key : String)
  | badMap (file : Path) (error : Json.ReadError)
  | badMapShape (file : Path) (complaint : Complaint)

/-- The words for what is not read. Which brackets went too deep depends on the reader's caller. -/
def Json.Refusal.message : Json.Refusal → String
  | longNumber digits => (NumberFault.tooLong digits).message
  | tooDeep => "maximum recursion depth exceeded"
  | unfollowed => ""

/-- The words for a text that is no JSON. -/
def Json.ReadError.message : Json.ReadError → String
  | malformed cause line column index =>
    s!"{cause.message}: line {line} column {column} (char {index})"
  | refused r => r.message

def ConfigFault.message : ConfigFault → String
  | missing file => s!"{file.name} missing: {file}"
  | notJson file e => s!"{file.name} is not valid JSON: {e.message}"
  | badShape file c => s!"{file.name} has an invalid shape: {c.message}"
  | repeatedRoute key => s!"Duplicate routeKey in routes.json: {key}"
  | badMap file e => s!"Tour map at {file} is invalid: {e.message}"
  | badMapShape file c => s!"Tour map at {file} is invalid: {c.message}"

/-- The kinds of faults that a page or a session can raise: a browser's error, a timeout as one
of them, a fault of the system, an interruption, and an ill value. -/
inductive PageFaultKind where
  | browser
  | timeout
  | system
  | interrupt
  | value
  deriving DecidableEq, Repr

def PageFaultKind.isBrowser : PageFaultKind → Bool
  | browser | timeout => true
  | _ => false

/-- Everything that can go wrong. -/
inductive Fault where
  | refusal (r : Guide.Refusal)
  | unresolved (issues : List Issue)
  | format (c : Complaint)
  | json (e : Json.ReadError)
  | utf8 (f : Text.Utf8.Fault)
  | file (f : FileFault)
  | number (f : NumberFault)
  | step (f : StepFault)
  | config (f : ConfigFault)
  | url (f : UrlFault)
  | kind (f : KindFault)
  | page (kind : PageFaultKind) (message : String)
  | launch (reason : String)
  | notStarted

namespace Fault

def message : Fault → String
  | refusal r => r.message
  | unresolved issues => describeIssues issues
  | format c => c.message
  | json e => e.message
  | utf8 f => f.message
  | file f => f.message
  | number f => f.message
  | step f => f.message
  | config f => f.message
  | url f => f.message
  | kind f => f.message
  | page _ m => m
  | launch reason => s!"Browser failed to launch: {reason}"
  | notStarted => "Browser session is not started"

/-- The name that stands for a fault without words. -/
def title : Fault → String
  | page .browser _ => "Error"
  | page .timeout _ => "TimeoutError"
  | page .system _ => "OSError"
  | page .interrupt _ => "KeyboardInterrupt"
  | page .value _ => "ValueError"
  | _ => "Error"

/-- The first line of the words for a fault, or its name. -/
def firstLine (f : Fault) : String := f.message.firstLine?.getD f.title

def isBrowser : Fault → Bool
  | page k _ => k.isBrowser
  | _ => false

def isTimeout : Fault → Bool
  | page .timeout _ => true
  | _ => false

end Fault

end Walkthrough
