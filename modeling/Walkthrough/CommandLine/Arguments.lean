import Walkthrough.Identifier
import Walkthrough.Path
import Walkthrough.Text.Digit
/-!
Arguments of a command: flags, by their names or by what begins only one of them, and at most one
operand. Flags and the operand come in any order; behind `--` nothing is a flag. A value written
`--` is dropped, so that its flag is there without one.
-/

namespace Walkthrough.CommandLine

/-- The flags of all commands. -/
inductive Flag where
  | help
  | root
  | verbose
  | fragments
  | tours
  | baseUrl
  | headed
  | headless
  | source
  | output
  | noRouteReady
  deriving DecidableEq, Repr

namespace Flag

def names : Flag → List String
  | help => ["-h", "--help"]
  | root => ["--root"]
  | verbose => ["-v", "--verbose"]
  | fragments => ["--fragments-dir"]
  | tours => ["--out-dir"]
  | baseUrl => ["--base-url"]
  | headed => ["--headed"]
  | headless => ["--headless"]
  | source => ["--source-dir"]
  | output => ["--output-dir"]
  | noRouteReady => ["--no-route-ready"]

/-- A flag that has a value; only flags of one long name have. -/
def takesValue : Flag → Bool
  | root | fragments | tours | baseUrl | source | output => true
  | _ => false

end Flag

/-- The form of a command's arguments: its flags, and what its operand is, if it has one. -/
structure Form where
  flags : List Flag
  operand : Option String := none
  deriving Repr

/-- Arguments that are not of the form, or ask for help. -/
inductive Usage where
  | wrong
  | help
  deriving DecidableEq, Repr

/-- The code a command ends with when it is not done. -/
def Usage.code : Usage → Nat
  | wrong => 2
  | help => 0

/-- An argument by itself. -/
inductive Token where
  | operand (text : String)
  | dashes
  | flag (f : Flag) (isShort : Bool) (attached : Option String)
  | unknown
  deriving DecidableEq, Repr

/-- Arguments as they were read: the flags in order, each with its value if it has one, the operand,
and whether anything else was there. -/
structure Arguments where
  given : List (Flag × Option String) := []
  operand : Option String := none
  isOver : Bool := false
  deriving DecidableEq, Repr

/-- `-` and a number, which is no flag. -/
def isNegativeNumber : List Char → Bool
  | '-' :: r =>
    let (whole, rest) := (r.takeWhile Text.isDigit, r.dropWhile Text.isDigit)
    match rest with
    | [] => !whole.isEmpty
    | '.' :: places => allOf Text.isDigit places
    | _ => false
  | _ => false

def shortName (c : Char) : String := String.ofList ['-', c]

namespace Form

def names (form : Form) : List (String × Flag) :=
  form.flags.flatMap fun f => f.names.map (·, f)

def flag? (form : Form) (name : String) : Option Flag := form.names.lookup name

/-- The sides of the first `=`. -/
def splitValue (s : List Char) : List Char × Option String :=
  match s.dropWhile (· != '=') with
  | _ :: value => (s.takeWhile (· != '='), some (String.ofList value))
  | [] => (s, none)

/-- The flags that an argument may begin, or a flag of one letter with what follows it. -/
def begun (form : Form) (s : List Char) : List Token :=
  match s with
  | '-' :: '-' :: _ =>
    let (lead, value) := splitValue s
    form.names.filterMap fun (name, f) =>
      if lead.isPrefixOf name.toList then some (.flag f false value) else none
  | '-' :: c :: rest =>
    form.names.filterMap fun (name, f) =>
      if name = shortName c then some (.flag f true (some (String.ofList rest)))
      else if s.isPrefixOf name.toList then some (.flag f false none)
      else none
  | _ => []

def token (form : Form) (arg : String) : Except Usage Token :=
  let s := arg.toList
  if s.head? != some '-' || s = ['-'] then .ok (.operand arg) else
  match form.flag? arg with
  | some f => .ok (.flag f (s.length == 2) none)
  | none =>
    let (name, value) := splitValue s
    match form.flag? (String.ofList name), value with
    | some f, some _ => .ok (.flag f (name.length == 2) value)
    | _, _ =>
      match form.begun s with
      | [t] => .ok t
      | [] =>
        if upToLineFeed isNegativeNumber s || s.contains ' ' then .ok (.operand arg)
        else .ok .unknown
      | _ => .error .wrong

/-- What each argument is by itself. -/
def tokens (form : Form) : List String → Except Usage (List Token)
  | [] => .ok []
  | arg :: args => do
    if arg = "--" then return .dashes :: args.map .operand
    return (← form.token arg) :: (← tokens form args)

/-- The flags of letters written together behind one dash. -/
def cluster (form : Form) (f : Flag) : List Char → Except Usage (List Flag)
  | [] => .ok [f]
  | c :: cs =>
    match form.flag? (shortName c) with
    | some g => do return f :: (← cluster form g cs)
    | none => .error .wrong

/-- Takes a flag without a value. -/
def switch (a : Arguments) (f : Flag) : Except Usage Arguments :=
  if f = .help then .error .help else .ok { a with given := a.given ++ [(f, none)] }

def assign (a : Arguments) (f : Flag) (value : String) : Arguments :=
  { a with given := a.given ++ [(f, if value = "--" then none else some value)] }

/-- Takes the operand; a second one is too many. -/
def place (form : Form) (a : Arguments) (text : String) : Arguments :=
  if form.operand.isSome && a.operand.isNone then { a with operand := some text }
  else { a with isOver := true }

def attach (form : Form) (a : Arguments) (f : Flag) (isShort : Bool) (value : String) :
    Except Usage Arguments := do
  if f.takesValue then return assign a f value
  if !isShort || value = "" then .error .wrong
  (← form.cluster f value.toList).foldlM switch a

def consume (form : Form) : Arguments → List Token → Except Usage Arguments
  | a, [] => .ok a
  | a, .flag f isShort (some value) :: ts => do consume form (← form.attach a f isShort value) ts
  | a, .flag f _ none :: ts => do
    if f.takesValue then
      match ts with
      | .operand value :: ts => consume form (assign a f value) ts
      | _ => .error .wrong
    else consume form (← switch a f) ts
  | a, .operand text :: .dashes :: ts => consume form (form.place a text) ts
  | a, .dashes :: .operand text :: ts => consume form (form.place a text) ts
  | a, .operand text :: ts => consume form (form.place a text) ts
  | a, .dashes :: ts => consume form { a with isOver := true } ts
  | a, .unknown :: ts => consume form { a with isOver := true } ts

def read (form : Form) (args : List String) : Except Usage Arguments := do
  let a ← form.consume {} (← form.tokens args)
  if a.isOver || (form.operand.isSome && a.operand.isNone) then .error .wrong else .ok a

end Form

namespace Arguments

def has (a : Arguments) (f : Flag) : Bool := a.given.any (·.1 == f)

/-- What a flag was given, each time it was there. -/
def values (a : Arguments) (f : Flag) : List (Option String) :=
  a.given.filterMap fun (g, v) => if g = f then some v else none

/-- What a flag was given the last time, if that was a value. -/
def value? (a : Arguments) (f : Flag) : Option String := (a.values f).getLast?.join

/-- A flag was there without a value the last time. -/
def lacksValue (a : Arguments) (f : Flag) : Bool := (a.values f).getLast? == some none

/-- The last path that a flag was given. -/
def path? (a : Arguments) (f : Flag) : Option Path := (a.value? f).map .ofString

end Arguments

end Walkthrough.CommandLine
