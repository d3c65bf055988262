import Walkthrough.Number.Shortest
/-!
Numbers as a document holds them: whole numbers of any size and floating-point numbers.
-/

namespace Walkthrough

/-- A number. -/
inductive Number where
  | int (n : Int)
  | real (x : Binary64)
  deriving DecidableEq, Repr

namespace Number

instance : Inhabited Number := ⟨.int 0⟩

instance : Coe Nat Number := ⟨fun n => .int n⟩

def text : Number → String
  | int n => toString n
  | real x => String.ofList x.text

instance : ToString Number := ⟨text⟩

/-- A number without a fraction. -/
def isWhole : Number → Bool
  | int _ => true
  | real x => x.isWhole

def isZero : Number → Bool
  | int n => n == 0
  | real x => x.isZero

def isPositive : Number → Bool
  | int n => decide (0 < n)
  | real x => x.isPositive

/-- The number is below a whole number. -/
def ltInt : Number → Int → Bool
  | int n, k => decide (n < k)
  | real x, k => x.ltInt k

end Number

end Walkthrough
