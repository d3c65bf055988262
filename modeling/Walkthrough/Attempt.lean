/-!
Attempts: actions on a state that end with a value or a cause, and leave a state behind either way.
-/

namespace Walkthrough

/-- An action on a state that can fail with a cause of a type. -/
abbrev Attempt (ε s : Type) := ExceptT ε (StateM s)

namespace Attempt

variable {ε ε' s t α : Type}

def outcome (a : Attempt ε s α) : Attempt ε' s (Except ε α) :=
  fun st =>
    let (r, st) := a st
    (.ok r, st)

def decided (x : Except ε α) : Attempt ε s α := fun st => (x, st)

/-- A change of the state, which stays as it is if the change fails. -/
def change (f : s → Except ε s) : Attempt ε s Unit :=
  fun st =>
    match f st with
    | .ok st => (.ok (), st)
    | .error e => (.error e, st)

/-- An action on a part of a state, with its causes seen as others. -/
def focus (part : s → t) (put : t → s → s) (cause : ε → ε') (a : Attempt ε t α) :
    Attempt ε' s α :=
  fun st =>
    let (r, p) := a (part st)
    (r.mapError cause, put p st)

def withCause (cause : ε → ε') (a : Attempt ε s α) : Attempt ε' s α :=
  focus id (fun st _ => st) cause a

/-- An action and then another, which is done however the first ends; a cause of the second
counts before one of the first. -/
def thenAlways (a : Attempt ε s α) (last : Attempt ε s Unit) : Attempt ε s α := do
  let r ← a.outcome
  last
  decided r

end Attempt

end Walkthrough
