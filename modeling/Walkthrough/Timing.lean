import Walkthrough.Number.Whole
/-!
Clocks: how a deadline is set, how much time is left until it, and how long something took.
-/

namespace Walkthrough

namespace Number

/-- A thousandth of a number. -/
def thousandth : Number → Except NumberFault Binary64
  | int n =>
    match Binary64.ofQuotient (decide (n < 0)) n.natAbs 1000 with
    | .infinity _ => .error .quotientBeyondReal
    | x => .ok x
  | real x => .ok (x.divNat 1000)

end Number

/-- What one does with the readings of a clock; times are in milliseconds. -/
structure Timing (ι : Type) where
  /-- The reading after a time. -/
  after : ι → Number → Except NumberFault ι
  /-- The whole time left until a reading. -/
  left : ι → ι → Except NumberFault Int
  /-- The time from one reading to another, to a tenth. -/
  elapsed : ι → ι → Number

namespace Timing

def seconds : Timing Binary64 where
  after t n := return t.add (← n.thousandth)
  left deadline t := Number.truncate (.real ((deadline.sub t).mul (.ofInt 1000)))
  elapsed start t := .real ((t.sub start).mul (.ofInt 1000)).roundTenth

/-- Readings in whole milliseconds. -/
def exact : Timing Int where
  after t n := return t + (← n.truncate)
  left deadline t := .ok (deadline - t)
  elapsed start t := .int (t - start)

end Timing

end Walkthrough
