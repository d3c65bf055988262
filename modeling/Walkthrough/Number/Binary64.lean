/-!
Binary floating-point numbers of 64 bits as exact values, with correctly rounded arithmetic.
A finite number is a significand below `2 ^ 53` times a power of two from `-1074` up; the
significand is at least `2 ^ 52` unless the power is the least.
-/

namespace Walkthrough

/-- A floating-point number; zero has a sign. -/
inductive Binary64 where
  | nan
  | infinity (negative : Bool)
  | finite (negative : Bool) (significand : Nat) (power : Int)
  deriving DecidableEq, Repr, Inhabited

namespace Binary64

/-- The quotient to the nearest whole number, a half to the even one. -/
def roundDiv (num den : Nat) : Nat :=
  let q := num / den
  let r := num % den
  if 2 * r < den then q
  else if den < 2 * r then q + 1
  else q + q % 2

/-- A half is the most that rounding a quotient changes it. -/
theorem roundDiv_near (num : Nat) {den : Nat} (hd : 0 < den) :
    2 * num ≤ 2 * (den * roundDiv num den) + den ∧
      2 * (den * roundDiv num den) ≤ 2 * num + den := by
  have h := Nat.div_add_mod num den
  have hr := Nat.mod_lt num hd
  simp only [roundDiv]
  generalize num / den = q at *
  generalize num % den = r at *
  split
  · omega
  · split
    · rw [Nat.mul_add, Nat.mul_one]; omega
    · rcases Nat.mod_two_eq_zero_or_one q with h2 | h2 <;> rw [h2]
      · simp only [Nat.add_zero]; omega
      · rw [Nat.mul_add, Nat.mul_one]; omega

def pow2 (n : Nat) : Nat := Nat.pow 2 n

def pow10 (n : Nat) : Nat := Nat.pow 10 n

/-- The quotient in units of `2 ^ power`, to the nearest one. -/
def scaledDiv (num den : Nat) (power : Int) : Nat :=
  if 0 ≤ power then roundDiv num (den * pow2 power.toNat)
  else roundDiv (num * pow2 (-power).toNat) den

/-- The power at which a positive quotient has a significand of 53 bits, or the least power. -/
def powerOf (num den : Nat) : Int :=
  let guess : Int := (num.log2 : Int) - (den.log2 : Int) - 52
  let low :=
    if 0 ≤ guess then num < den * pow2 52 * pow2 guess.toNat
    else num * pow2 (-guess).toNat < den * pow2 52
  max (if low then guess - 1 else guess) (-1074)

/-- The number nearest to a quotient; beyond the largest one it is infinite. -/
def ofQuotient (negative : Bool) (num den : Nat) : Binary64 :=
  if num = 0 then finite negative 0 (-1074) else
  let e := powerOf num den
  let m := scaledDiv num den e
  let (m, e) := if m = pow2 53 then (pow2 52, e + 1) else (m, e)
  if 971 < e then infinity negative else finite negative m e

/-- The number nearest to a signed whole number times a power of two. -/
def ofScaled (negativeZero : Bool) (n : Int) (power : Int) : Binary64 :=
  let negative := if n = 0 then negativeZero else decide (n < 0)
  if 0 ≤ power then ofQuotient negative (n.natAbs * pow2 power.toNat) 1
  else ofQuotient negative n.natAbs (pow2 (-power).toNat)

/-- The number nearest to a whole number. -/
def ofInt (n : Int) : Binary64 := ofQuotient (decide (n < 0)) n.natAbs 1

/-- The number nearest to `digits * 10 ^ exponent`, of which the size is seen first. -/
def ofDecimal (negative : Bool) (digits : Nat) (exponent : Int) : Binary64 :=
  let size : Int := (Nat.toDigits 10 digits).length + exponent
  if digits = 0 ∨ size < -400 then finite negative 0 (-1074)
  else if 400 < size then infinity negative
  else if 0 ≤ exponent then ofQuotient negative (digits * pow10 exponent.toNat) 1
  else ofQuotient negative digits (pow10 (-exponent).toNat)

def signed (negative : Bool) (m : Nat) : Int := if negative then -(m : Int) else m

def neg : Binary64 → Binary64
  | nan => nan
  | infinity s => infinity (!s)
  | finite s m e => finite (!s) m e

/-- The sum; opposite zeros give a positive one. -/
def add : Binary64 → Binary64 → Binary64
  | nan, _ => nan
  | _, nan => nan
  | infinity s, infinity t => if s = t then infinity s else nan
  | infinity s, finite .. => infinity s
  | finite .., infinity t => infinity t
  | finite s m e, finite t n f =>
    let low := min e f
    ofScaled (s && t)
      (signed s m * pow2 (e - low).toNat + signed t n * pow2 (f - low).toNat) low

def sub (x y : Binary64) : Binary64 := add x y.neg

def mul : Binary64 → Binary64 → Binary64
  | nan, _ => nan
  | _, nan => nan
  | infinity s, infinity t => infinity (s != t)
  | infinity s, finite t n _ => if n = 0 then nan else infinity (s != t)
  | finite s m _, infinity t => if m = 0 then nan else infinity (s != t)
  | finite s m e, finite t n f => ofScaled (s != t) (signed (s != t) (m * n)) (e + f)

/-- The quotient by a positive whole number. -/
def divNat (x : Binary64) (den : Nat) : Binary64 :=
  match x with
  | nan => nan
  | infinity s => infinity s
  | finite s m e =>
    if 0 ≤ e then ofQuotient s (m * pow2 e.toNat) den
    else ofQuotient s m (den * pow2 (-e).toNat)

/-- The whole part, towards zero; only a finite number has one. -/
def truncate? : Binary64 → Option Int
  | finite s m e =>
    some (signed s (if 0 ≤ e then m * pow2 e.toNat else m / pow2 (-e).toNat))
  | _ => none

/-- A finite number without a fraction. -/
def isWhole : Binary64 → Bool
  | finite _ m e => decide (0 ≤ e) || m % pow2 (-e).toNat == 0
  | _ => false

def isZero : Binary64 → Bool
  | finite _ m _ => m == 0
  | _ => false

def isPositive : Binary64 → Bool
  | nan => false
  | infinity s => !s
  | finite s m _ => !s && m != 0

/-- The number is below a whole number. -/
def ltInt : Binary64 → Int → Bool
  | nan, _ => false
  | infinity s, _ => s
  | finite s m e, k =>
    if 0 ≤ e then decide (signed s m * pow2 e.toNat < k)
    else decide (signed s m < k * pow2 (-e).toNat)

/-- The number to one decimal place, a half of the last place to the even neighbour. -/
def roundTenth : Binary64 → Binary64
  | finite s m e =>
    let tenths :=
      if 0 ≤ e then m * pow2 e.toNat * 10 else roundDiv (m * 10) (pow2 (-e).toNat)
    ofQuotient s tenths 10
  | x => x

end Binary64

end Walkthrough
