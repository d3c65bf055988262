import Walkthrough.Suggest
import Walkthrough.Tour
import Walkthrough.TourMap
import Walkthrough.Vocabulary
/-!
References of a tour to routes, events and anchors, and the issues with those that nothing
answers to.
-/

namespace Walkthrough

def ActionOf.reference? {τ φ ν : Type} : ActionOf τ φ ν → Option (ReferenceKind × τ)
  | .goto k => some (.routeKey, k)
  | .waitForEvent _ e _ => some (.event, e)
  | .click _ a _ => some (.anchor, a)
  | .fill _ a .. => some (.anchor, a)
  | .expectVisible _ a _ => some (.anchor, a)
  | _ => none

/-- The names that are known; anchors are not checked without a map. -/
structure Known where
  routeKeys : List String
  events : List String
  anchors : Option (List String)
  deriving Repr

namespace Known

/-- What a vocabulary and a map know, each name once, in order. -/
def of (v : Vocabulary) (m : Option TourMap) : Known :=
  ⟨v.routeKeySet, v.eventSet, m.map (·.anchorSet)⟩

/-- The names of a kind, if they are checked. -/
def names? (k : Known) : ReferenceKind → Option (List String)
  | .routeKey => some k.routeKeys
  | .event => some k.events
  | .anchor => k.anchors

def isUnknown (k : Known) (r : ReferenceKind × String) : Bool :=
  (k.names? r.1).any fun names => !names.contains r.2

end Known

namespace Tour

/-- The references of a tour with the steps that hold them. -/
def references (t : Tour) : List ((ReferenceKind × String) × Nat) :=
  t.steps.zipIdx.filterMap fun (s, i) => s.action.reference?.map (·, i)

def anchorReferences (t : Tour) : List String :=
  t.steps.filterMap fun s =>
    match s.action.reference? with
    | some (.anchor, a) => some a
    | _ => none

def issue (k : Known) (all : List ((ReferenceKind × String) × Nat)) (r : ReferenceKind × String) :
    Issue :=
  ⟨r.1, r.2, (all.filter (·.1 == r)).map (·.2), Suggest.nearest r.2 ((k.names? r.1).getD [])⟩

/-- The issues of a tour, one for each reference that nothing answers to, in the order of the
first steps that hold them. -/
def issues (t : Tour) (k : Known) : List Issue :=
  let unknown := t.references.filter (k.isUnknown ·.1)
  (unknown.map (·.1)).eraseDups.map (issue k unknown)

end Tour

end Walkthrough
