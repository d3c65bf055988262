import Walkthrough.Identifier
import Walkthrough.Json.Display
/-!
Document formats as schemas: an ordered list of rules for a value. `Schema.check` lists what a
value breaks, and `Schema.validate` names the one violation that says most.
-/

namespace Walkthrough

/-- The kinds of JSON values a rule can ask for. -/
inductive JsonKind where
  | object
  | array
  | string
  | integer
  | boolean
  deriving DecidableEq, Repr

namespace JsonKind

def name : JsonKind → String
  | object => "object"
  | array => "array"
  | string => "string"
  | integer => "integer"
  | boolean => "boolean"

/-- A value is of a kind; a floating-point number without a fraction is an integer. -/
def admits : JsonKind → Json → Bool
  | object, .obj _ => true
  | array, .arr _ => true
  | string, .str _ => true
  | integer, .num n => n.isWhole
  | boolean, .bool _ => true
  | _, _ => false

end JsonKind

/-- The forms of text a rule can ask for. -/
inductive Pattern where
  | rooted
  | tourId
  | anchor
  | event
  | envName
  | shotName
  deriving DecidableEq, Repr

namespace Pattern

def source : Pattern → String
  | rooted => "^/"
  | tourId => "^[A-Za-z0-9][A-Za-z0-9._-]*$"
  | anchor => "^tour\\.[A-Za-z0-9_-]+(\\.[A-Za-z0-9_-]+)+$"
  | event => "^tour\\.event\\.[A-Za-z0-9_.-]+$"
  | envName => "^[A-Za-z_][A-Za-z0-9_]*$"
  | shotName => "^[A-Za-z0-9._-]+$"

/-- A text has the form; the end of a form lets one line feed pass. -/
def admits (p : Pattern) (s : String) : Bool :=
  match p with
  | rooted => s.toList.head? == some '/'
  | tourId => upToLineFeed isTourId s.toList
  | anchor => upToLineFeed isAnchor s.toList
  | event => upToLineFeed isEvent s.toList
  | envName => upToLineFeed isVariable s.toList
  | shotName => upToLineFeed isShotName s.toList

end Pattern

mutual
/-- A format: rules in the order in which they are checked. -/
inductive Schema where
  | rules (rs : List Rule)

/-- One rule for a value. A rule for one kind of value lets every other kind pass. -/
inductive Rule where
  | kind (k : JsonKind)
  | required (keys : List String)
  | properties (props : List (String × Schema))
  | additional (known : List String) (schema : Option Schema)
  | items (schema : Schema)
  | pattern (p : Pattern)
  | nonEmpty
  | minimum (least : Int)
  | const (s : String)
  | oneAmong (ss : List String)
  | oneOf (branches : List Schema)
end

instance : Inhabited Schema := ⟨.rules []⟩

namespace Schema

mutual
def toJson : Schema → Json
  | rules rs => .obj (rulesToJson rs)

def rulesToJson : List Rule → List (String × Json)
  | [] => []
  | r :: rs => ruleToJson r :: rulesToJson rs

def ruleToJson : Rule → String × Json
  | .kind k => ("type", .str k.name)
  | .required keys => ("required", .strs keys)
  | .properties props => ("properties", .obj (propsToJson props))
  | .additional _ none => ("additionalProperties", .bool false)
  | .additional _ (some s) => ("additionalProperties", s.toJson)
  | .items s => ("items", s.toJson)
  | .pattern p => ("pattern", .str p.source)
  | .nonEmpty => ("minLength", .int 1)
  | .minimum n => ("minimum", .int n)
  | .const s => ("const", .str s)
  | .oneAmong ss => ("enum", .strs ss)
  | .oneOf branches => ("oneOf", .arr (listToJson branches))

def propsToJson : List (String × Schema) → List (String × Json)
  | [] => []
  | (k, s) :: ps => (k, s.toJson) :: propsToJson ps

def listToJson : List Schema → List Json
  | [] => []
  | s :: ss => s.toJson :: listToJson ss
end

/-- The kind a format asks for, if it does. -/
def kind? : Schema → Option JsonKind
  | rules rs => rs.findSome? fun
    | .kind k => some k
    | _ => none

end Schema

/-- What a value breaks. -/
inductive Complaint where
  | wrongKind (v : Json) (k : JsonKind)
  | missing (key : String)
  | unexpected (keys : List String)
  | wrongForm (v : Json) (p : Pattern)
  | empty (v : Json)
  | below (v : Json) (least : Int)
  | notConst (s : String)
  | notAmong (v : Json) (ss : List String)
  | noBranch (v : Json)
  | manyBranches (v : Json) (valid : List Schema)

def Complaint.message : Complaint → String
  | wrongKind v k => v.shown ++ " is not of type " ++ k.name.inQuotes
  | missing key => key.inQuotes ++ " is a required property"
  | unexpected keys =>
    "Additional properties are not allowed (" ++ ", ".intercalate (keys.map String.inQuotes) ++
      (if keys.length = 1 then " was" else " were") ++ " unexpected)"
  | wrongForm v p => v.shown ++ " does not match " ++ p.source.inQuotes
  | empty v => v.shown ++ " should be non-empty"
  | below v least => v.shown ++ s!" is less than the minimum of {least}"
  | notConst s => s.inQuotes ++ " was expected"
  | notAmong v ss => v.shown ++ " is not one of " ++ (Json.strs ss).shown
  | noBranch v => v.shown ++ " is not valid under any of the given schemas"
  | manyBranches v valid =>
    v.shown ++ " is valid under each of " ++
      ", ".intercalate (valid.map fun s => s.toJson.shown)

/-- A step from a value to one of its parts. -/
inductive Place where
  | key (k : String)
  | index (i : Nat)
  deriving DecidableEq, Repr

/-- Places of one value: keys by their characters, items by their number. -/
def Place.lt : Place → Place → Bool
  | key a, key b => decide (a < b)
  | index i, index j => decide (i < j)
  | key _, index _ => false
  | index _, key _ => true

/-- A broken rule: where, whether it is a choice of branches, whether the value there is of the
kind that its format asks for, and the complaint to report for it. -/
structure Violation where
  path : List Place
  ofBranches : Bool
  fitsKind : Bool
  complaint : Complaint

namespace Violation

/-- The violation seen from one step up. -/
def below (p : Place) (v : Violation) : Violation := { v with path := p :: v.path }

def pathLt : List Place → List Place → Bool
  | [], [] => false
  | [], _ :: _ => true
  | _ :: _, [] => false
  | p :: ps, q :: qs => p.lt q || (p == q && pathLt ps qs)

def sameRank (v w : Violation) : Bool :=
  v.path == w.path && v.ofBranches == w.ofBranches && v.fitsKind == w.fitsKind

/-- One violation ranks below another: it is deeper; then by path; then a choice of branches
comes first; then a value of the right kind. -/
def rankLt (v w : Violation) : Bool :=
  if v.path.length ≠ w.path.length then decide (w.path.length < v.path.length)
  else if v.path ≠ w.path then pathLt v.path w.path
  else if v.ofBranches ≠ w.ofBranches then v.ofBranches
  else v.fitsKind && !w.fitsKind

/-- The first of the violations of the highest rank. -/
def highest? : List Violation → Option Violation
  | [] => none
  | v :: vs => some (vs.foldl (fun best w => if best.rankLt w then w else best) v)

/-- The first of the violations of the lowest rank, unless another has the same. -/
def lowest? : List Violation → Option Violation
  | [] => none
  | v :: vs =>
    let low := vs.foldl (fun best w => if w.rankLt best then w else best) v
    if 1 < (v :: vs).countP (sameRank low) then none else some low

end Violation

namespace Schema

/-- The keys of an object that are not among the known ones. -/
def extraKeys (known : List String) (ms : Json.Members) : List (String × Json) :=
  ms.filter fun m => !known.contains m.1

def broken (fits : Bool) (c : Complaint) : List Violation := [⟨[], false, fits, c⟩]

/-- A choice of branches that is not met by exactly one: the complaint to report is that of the
lowest violation in the branches, if one of them is the lowest. -/
def judge (fits : Bool) (v : Json) (outcomes : List (Schema × List Violation)) :
    List Violation :=
  match (outcomes.filter (·.2.isEmpty)).map (·.1) with
  | [] =>
    let context := outcomes.flatMap (·.2)
    [⟨[], true, fits, ((Violation.lowest? context).map (·.complaint)).getD (.noBranch v)⟩]
  | [_] => []
  | first :: more => [⟨[], true, fits, .manyBranches v (more ++ [first])⟩]

mutual
def check : Schema → Json → List Violation
  | rules rs, v => checkRules ((rules rs).kind?.any (·.admits v)) rs v

/-- What a value breaks of some rules; `fits` tells whether it is of the kind asked for. -/
def checkRules (fits : Bool) : List Rule → Json → List Violation
  | [], _ => []
  | r :: rs, v => checkRule fits r v ++ checkRules fits rs v

def checkRule (fits : Bool) : Rule → Json → List Violation
  | .kind k, v => if k.admits v then [] else broken fits (.wrongKind v k)
  | .required keys, .obj ms =>
    keys.flatMap fun key =>
      if (Json.Members.get? ms key).isSome then [] else broken fits (.missing key)
  | .properties props, .obj ms => checkProps props ms
  | .additional known none, .obj ms =>
    match extraKeys known ms with
    | [] => []
    | extra => broken fits (.unexpected ((extra.map (·.1)).mergeSort fun a b => decide (a ≤ b)))
  | .additional known (some s), .obj ms =>
    (extraKeys known ms).flatMap fun m => (s.check m.2).map (·.below (.key m.1))
  | .items s, .arr vs =>
    vs.zipIdx.flatMap fun p => (s.check p.1).map (·.below (.index p.2))
  | .pattern p, .str s => if p.admits s then [] else broken fits (.wrongForm (.str s) p)
  | .nonEmpty, .str s => if s = "" then broken fits (.empty (.str s)) else []
  | .minimum least, .num n => if n.ltInt least then broken fits (.below (.num n) least) else []
  | .const s, v => if v.str? = some s then [] else broken fits (.notConst s)
  | .oneAmong ss, v => if v.str?.any ss.contains then [] else broken fits (.notAmong v ss)
  | .oneOf branches, v => judge fits v (checkEach branches v)
  | _, _ => []

/-- What the values of an object's keys break of the formats for them. -/
def checkProps : List (String × Schema) → Json.Members → List Violation
  | [], _ => []
  | (key, s) :: ps, ms =>
    (match Json.Members.get? ms key with
      | some v => (s.check v).map (·.below (.key key))
      | none => []) ++ checkProps ps ms

/-- What a value breaks of each of some formats. -/
def checkEach : List Schema → Json → List (Schema × List Violation)
  | [], _ => []
  | s :: ss, v => (s, s.check v) :: checkEach ss v
end

def accepts (s : Schema) (v : Json) : Bool := (s.check v).isEmpty

/-- The complaint about a value that does not have the format. -/
def complaint? (s : Schema) (v : Json) : Option Complaint :=
  (Violation.highest? (s.check v)).map (·.complaint)

theorem complaint?_eq_none_iff (s : Schema) (v : Json) :
    s.complaint? v = none ↔ s.accepts v = true := by
  unfold complaint? accepts
  cases h : s.check v <;> simp [Violation.highest?]

end Schema

end Walkthrough
