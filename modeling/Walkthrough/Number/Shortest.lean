import Walkthrough.Number.Binary64
/-!
The shortest decimal that reads back as a given floating-point number, and its text: positional
from `10 ^ -4` up to below `10 ^ 16`, with an exponent of at least two digits elsewhere.
-/

namespace Walkthrough.Binary64

/-- A decimal: `digits * 10 ^ exponent`. -/
structure Decimal where
  digits : Nat
  exponent : Int
  deriving DecidableEq, Repr

/-- The place of the first digit of a positive significand times a power of two. -/
def firstPlace (m : Nat) (e : Int) : Int :=
  if 0 ≤ e then ((Nat.toDigits 10 (m * pow2 e.toNat)).length : Int) - 1
  else ((Nat.toDigits 10 (m * pow10 400 / pow2 (-e).toNat)).length : Int) - 401

/-- A positive value counted in units of `10 ^ place`: numerator and denominator. -/
def inUnits (m : Nat) (e place : Int) : Nat × Nat :=
  let num := m * pow2 e.toNat * pow10 (-place).toNat
  let den := pow2 (-e).toNat * pow10 place.toNat
  (num, den)

/-- The nearer of the two neighbours on a decimal grid that read back, if one does. -/
def onGrid? (m : Nat) (e place : Int) : Option Decimal :=
  let (num, den) := inUnits m e place
  let below := num / den
  let readsBack (d : Nat) : Bool := ofDecimal false d place == finite false m e
  let upper := 2 * (num % den) > den || (2 * (num % den) == den && below % 2 == 1)
  let near := if upper then below + 1 else below
  let far := if upper then below else below + 1
  if readsBack near then some ⟨near, place⟩
  else if readsBack far then some ⟨far, place⟩
  else none

/-- The shortest decimal that reads back; seventeen digits always do. -/
def shortest (m : Nat) (e : Int) : Decimal :=
  let first := firstPlace m e
  let grids := (List.range 17).map fun (n : Nat) => first - (n : Int)
  (grids.findSome? (onGrid? m e)).getD ⟨0, 0⟩

def Decimal.digitText (d : Decimal) : List Char :=
  match ((Nat.toDigits 10 d.digits).reverse.dropWhile (· == '0')).reverse with
  | [] => ['0']
  | ds => ds

/-- The place of the point, counted from before the first digit. -/
def Decimal.point (d : Decimal) : Int := (Nat.toDigits 10 d.digits).length + d.exponent

/-- Digits with a point among, before or after them. -/
def positional (digits : List Char) (point : Int) : List Char :=
  if point ≤ 0 then '0' :: '.' :: List.replicate (-point).toNat '0' ++ digits
  else if (digits.length : Int) ≤ point then
    digits ++ List.replicate (point.toNat - digits.length) '0' ++ ['.', '0']
  else digits.take point.toNat ++ '.' :: digits.drop point.toNat

def exponential (digits : List Char) (point : Int) : List Char :=
  let e := point - 1
  let es := Nat.toDigits 10 e.natAbs
  (match digits with
    | [] => []
    | [d] => [d]
    | d :: ds => d :: '.' :: ds) ++
    'e' :: (if e < 0 then '-' else '+') :: (List.replicate (2 - es.length) '0' ++ es)

def text : Binary64 → List Char
  | nan => "nan".toList
  | infinity s => (if s then "-inf" else "inf").toList
  | finite s m e =>
    (if s then ['-'] else []) ++
      if m = 0 then "0.0".toList else
      let d := shortest m e
      if -4 < d.point ∧ d.point ≤ 16 then positional d.digitText d.point
      else exponential d.digitText d.point

end Walkthrough.Binary64
