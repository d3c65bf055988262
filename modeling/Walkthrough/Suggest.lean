import Walkthrough.Text.Lower
/-!
Suggestions: the known names nearest to an unknown one, by edit distance.
-/

namespace Walkthrough.Suggest

/-- Distances from a text with one more character in front to all suffixes of another, longest
suffix first, given the distances without that character. -/
def distancesWith (x : Char) : List Char → List Nat → List Nat
  | [], prev => [prev.headD 0 + 1]
  | y :: ys, prev =>
    let rest := distancesWith x ys prev.tail
    let kept := prev.tail.headD 0 + if x = y then 0 else 1
    min (min (prev.headD 0 + 1) (rest.headD 0 + 1)) kept :: rest

/-- Distances from a text to all suffixes of another, longest suffix first. -/
def distances : List Char → List Char → List Nat
  | [], b => (List.range (b.length + 1)).reverse
  | x :: a, b => distancesWith x b (distances a b)

/-- The least number of insertions, deletions and substitutions of single characters that turn
one text into another. -/
def editDistance (a b : List Char) : Nat := (distances a b).headD 0

/-- The edit distance of two texts in lower case; nought when one starts with the other. -/
def distance (a b : String) : Nat :=
  let a := Text.lower a.toList
  let b := Text.lower b.toList
  if a.isPrefixOf b || b.isPrefixOf a then 0 else editDistance a b

/-- Candidates in order of rank, and by their characters among equals. -/
def rankedLe (x y : Nat × String) : Bool :=
  decide (x.1 < y.1) || (x.1 == y.1 && decide (x.2 ≤ y.2))

/-- The distinct candidates, the nearest to a value first. -/
def ranked (value : String) (candidates : List String) : List String :=
  ((candidates.eraseDups.map fun c => (distance value c, c)).mergeSort rankedLe).map (·.2)

/-- Where a list ends that is cut at a limit; a negative limit counts from the end. -/
def cutAt (length : Nat) (limit : Int) : Nat :=
  if 0 ≤ limit then limit.toNat else (length + limit).toNat

/-- The nearest candidates, no more than a limit. -/
def nearest (value : String) (candidates : List String) (limit : Int := 3) : List String :=
  let all := ranked value candidates
  all.take (cutAt all.length limit)

end Walkthrough.Suggest
