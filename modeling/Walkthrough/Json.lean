import Walkthrough.Number
/-!
JSON values. An object keeps its members in the order of the text and each key once.
-/

namespace Walkthrough

/-- A JSON value. -/
inductive Json where
  | null
  | bool (b : Bool)
  | num (n : Number)
  | str (s : String)
  | arr (items : List Json)
  | obj (members : List (String × Json))
  deriving Inhabited, Repr

namespace Json

mutual
def same : Json → Json → Bool
  | null, null => true
  | bool a, bool b => a == b
  | num m, num n => decide (m = n)
  | str s, str t => s == t
  | arr vs, arr ws => sameItems vs ws
  | obj ms, obj ns => sameMembers ms ns
  | _, _ => false

def sameItems : List Json → List Json → Bool
  | [], [] => true
  | v :: vs, w :: ws => same v w && sameItems vs ws
  | _, _ => false

/-- Two objects have the same members in the same order. -/
def sameMembers : List (String × Json) → List (String × Json) → Bool
  | [], [] => true
  | (k, v) :: ms, (l, w) :: ns => k == l && same v w && sameMembers ms ns
  | _, _ => false
end

mutual
theorem same_iff : ∀ v w : Json, same v w = true ↔ v = w
  | null, w => by cases w <;> simp [same]
  | bool _, w => by cases w <;> simp [same]
  | num _, w => by cases w <;> simp [same]
  | str _, w => by cases w <;> simp [same]
  | arr vs, w => by
    cases w with
    | arr ws => simp [same, sameItems_iff vs ws]
    | _ => simp [same]
  | obj ms, w => by
    cases w with
    | obj ns => simp [same, sameMembers_iff ms ns]
    | _ => simp [same]

theorem sameItems_iff : ∀ vs ws : List Json, sameItems vs ws = true ↔ vs = ws
  | [], ws => by cases ws <;> simp [sameItems]
  | v :: vs, ws => by
    cases ws with
    | nil => simp [sameItems]
    | cons w ws => simp [sameItems, same_iff v w, sameItems_iff vs ws]

theorem sameMembers_iff :
    ∀ ms ns : List (String × Json), sameMembers ms ns = true ↔ ms = ns
  | [], ns => by cases ns <;> simp [sameMembers]
  | (k, v) :: ms, ns => by
    cases ns with
    | nil => simp [sameMembers]
    | cons n ns => simp [sameMembers, same_iff v n.2, sameMembers_iff ms ns, Prod.ext_iff]
end

instance : DecidableEq Json := fun v w => decidable_of_iff _ (same_iff v w)

abbrev Members := List (String × Json)

def Members.get? (ms : Members) (key : String) : Option Json := List.lookup key ms

/-- Gives a key a value; a key that is there keeps its place. -/
def Members.put : Members → String → Json → Members
  | [], key, v => [(key, v)]
  | (k, w) :: ms, key, v => if k = key then (k, v) :: ms else (k, w) :: Members.put ms key v

def get? : Json → String → Option Json
  | obj ms, key => Members.get? ms key
  | _, _ => none

/-- A whole number. -/
def int (n : Int) : Json := num (.int n)

def strs (ss : List String) : Json := arr (ss.map str)

def objOf (ms : List (String × Option Json)) : Json :=
  obj (ms.filterMap fun (k, v) => v.map (k, ·))

def str? : Json → Option String
  | str s => some s
  | _ => none

/-- The number that a value counts as; truth values count as one and nought. -/
def number? : Json → Option Number
  | num n => some n
  | bool b => some (.int (if b then 1 else 0))
  | _ => none

def strs? : Json → Option (List String)
  | arr vs => vs.mapM str?
  | _ => none

/-- A value that counts as there: not null, false, zero or empty. -/
def isTruthy : Json → Bool
  | null => false
  | bool b => b
  | num n => !n.isZero
  | str s => s != ""
  | arr vs => !vs.isEmpty
  | obj ms => !ms.isEmpty

end Json

end Walkthrough
