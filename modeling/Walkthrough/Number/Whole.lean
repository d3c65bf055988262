import Walkthrough.Fault
import Walkthrough.Text.Digit
/-!
Whole numbers out of other values: digits with blanks, a sign and single underscores, numbers cut
towards zero, and truth values.
-/

namespace Walkthrough.Number

def isPadding (c : Char) : Bool := Text.isBlank c && !(28 ≤ c.toNat && c.toNat ≤ 31)

def sign : List Char → Bool × List Char
  | '-' :: r => (true, r)
  | '+' :: r => (false, r)
  | r => (false, r)

/-- The digits in front and what follows them; `none` where an underscore does not stand between
two digits. -/
def leadingDigits? (afterDigit : Bool) : List Char → Option (List Char × List Char)
  | [] => some ([], [])
  | '_' :: c :: r =>
    if afterDigit && Text.isDigit c then (leadingDigits? true r).map fun p => (c :: p.1, p.2)
    else none
  | c :: r =>
    if Text.isDigit c then (leadingDigits? true r).map fun p => (c :: p.1, p.2)
    else if c = '_' then none
    else some ([], c :: r)

/-- The whole number a text spells. Digits in front are counted before what follows them is seen. -/
def ofText (s : String) : Except NumberFault Int :=
  let (negative, r) := sign (Text.strip isPadding s.toList)
  match leadingDigits? false r with
  | some (ds, rest) =>
    if Json.digitLimit < ds.length then .error (.tooLong ds.length)
    else if ds.isEmpty || !rest.isEmpty then .error (.notWhole s)
    else .ok (Binary64.signed negative (Text.digitsValue ds))
  | none => .error (.notWhole s)

/-- A number without its fraction. -/
def truncate : Number → Except NumberFault Int
  | int n => .ok n
  | real x =>
    match x with
    | .nan => .error .ofNaN
    | .infinity _ => .error .ofInfinity
    | x => .ok (x.truncate?.getD 0)

end Walkthrough.Number
