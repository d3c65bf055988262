import Mathlib.Algebra.Order.Field.Power
import Mathlib.Algebra.Order.Ring.Abs
import Mathlib.Data.Rat.Cast.Order
import Mathlib.Tactic.Linarith
import Mathlib.Tactic.FieldSimp
import Mathlib.Tactic.Positivity
import Mathlib.Tactic.NormNum
import Walkthrough.Number.Binary64
/-!
Rounding to floating-point numbers: the number nearest to a quotient depends on the value of the
quotient alone, and a quotient less than half a unit in the last place from a number rounds to it.
-/

namespace Walkthrough.Binary64

theorem pow2_eq (n : Nat) : pow2 n = 2 ^ n := rfl

theorem pow10_eq (n : Nat) : pow10 n = 10 ^ n := rfl

theorem pow2_pos (n : Nat) : 0 < pow2 n := Nat.two_pow_pos n

theorem pow10_pos (n : Nat) : 0 < pow10 n := Nat.pow_pos (by decide)

theorem roundDiv_mul (num den k : Nat) (hk : 0 < k) :
    roundDiv (num * k) (den * k) = roundDiv num den := by
  unfold roundDiv
  rw [Nat.mul_div_mul_right _ _ hk, Nat.mul_mod_mul_right]
  simp only [← Nat.mul_assoc, Nat.mul_lt_mul_right hk]

/-- Rounding a quotient depends on its value alone. -/
theorem roundDiv_congr {num den num' den' : Nat} (hd : 0 < den) (hd' : 0 < den')
    (h : (num : ℚ) / den = num' / den') : roundDiv num den = roundDiv num' den' := by
  have hq : (den : ℚ) ≠ 0 := by positivity
  have hq' : (den' : ℚ) ≠ 0 := by positivity
  rw [div_eq_div_iff hq hq'] at h
  have hn : num * den' = num' * den := by exact_mod_cast h
  calc roundDiv num den
    _ = roundDiv (num * den') (den * den') := (roundDiv_mul num den den' hd').symm
    _ = roundDiv (num' * den) (den' * den) := by rw [hn, Nat.mul_comm den den']
    _ = roundDiv num' den' := roundDiv_mul num' den' den hd

/-- A quotient less than a half from a whole number rounds to it. -/
theorem roundDiv_eq {num den m : Nat} (hd : 0 < den) (h : |(num : ℚ) / den - m| < 1 / 2) :
    roundDiv num den = m := by
  have hq : (0 : ℚ) < den := by exact_mod_cast hd
  obtain ⟨hlow, hhigh⟩ := abs_lt.mp h
  have h1 : (2 * m * den : ℚ) < 2 * num + den := by
    have := (lt_div_iff₀ hq).mp (show (m : ℚ) - 1 / 2 < num / den by linarith)
    linarith
  have h2 : (2 * num : ℚ) < 2 * m * den + den := by
    have := (div_lt_iff₀ hq).mp (show (num : ℚ) / den < m + 1 / 2 by linarith)
    linarith
  have h1' : 2 * m * den < 2 * num + den := by exact_mod_cast h1
  have h2' : 2 * num < 2 * m * den + den := by exact_mod_cast h2
  obtain ⟨h3, h4⟩ := roundDiv_near num hd
  have hle : roundDiv num den < m + 1 := by
    by_contra hc
    have := Nat.mul_le_mul_left den (Nat.not_lt.mp hc)
    rw [Nat.mul_add, Nat.mul_one] at this
    nlinarith
  have hge : m < roundDiv num den + 1 := by
    by_contra hc
    have := Nat.mul_le_mul_left den (Nat.not_lt.mp hc)
    rw [Nat.mul_add, Nat.mul_one] at this
    nlinarith
  omega

theorem abs_roundDiv_sub_le (num : Nat) {den : Nat} (hd : 0 < den) :
    |(roundDiv num den : ℚ) - num / den| ≤ 1 / 2 := by
  have hq : (0 : ℚ) < den := by exact_mod_cast hd
  obtain ⟨h1, h2⟩ := roundDiv_near num hd
  have h1' : (2 * num : ℚ) ≤ 2 * (den * roundDiv num den) + den := by exact_mod_cast h1
  have h2' : (2 * (den * roundDiv num den) : ℚ) ≤ 2 * num + den := by exact_mod_cast h2
  have h3 : (num : ℚ) / den ≤ roundDiv num den + 1 / 2 := by
    rw [div_le_iff₀ hq]
    linarith
  have h4 : (roundDiv num den : ℚ) - 1 / 2 ≤ num / den := by
    rw [le_div_iff₀ hq]
    linarith
  rw [abs_le]
  constructor <;> linarith

theorem zpow_two_pos (e : Int) : (0 : ℚ) < 2 ^ e := zpow_pos (by norm_num) e

theorem zpow_toNat (b : ℚ) (e : Int) :
    b ^ e = b ^ e.toNat / b ^ (-e).toNat := by
  rcases le_total 0 e with he | he
  · have h : (-e).toNat = 0 := by omega
    rw [h, pow_zero, div_one, ← zpow_natCast, Int.toNat_of_nonneg he]
  · have h : e.toNat = 0 := by omega
    rw [h, pow_zero, ← zpow_natCast, Int.toNat_of_nonneg (by omega), zpow_neg, one_div, inv_inv]

/-- In units of a power of two. -/
theorem scaledDiv_eq (num den : Nat) (e : Int) :
    scaledDiv num den e = roundDiv (num * 2 ^ (-e).toNat) (den * 2 ^ e.toNat) := by
  unfold scaledDiv
  split_ifs with he
  · have h : (-e).toNat = 0 := by omega
    rw [h, pow_zero, mul_one]
    rfl
  · have h : e.toNat = 0 := by omega
    rw [h, pow_zero, mul_one]
    rfl

theorem scaled_ratio (num den : Nat) (e : Int) :
    ((num * 2 ^ (-e).toNat : Nat) : ℚ) / ((den * 2 ^ e.toNat : Nat) : ℚ) =
      (num : ℚ) / den / 2 ^ e := by
  rw [zpow_toNat]
  push_cast
  field_simp

/-- Counting in units rounds to the number of units that is less than half a unit from the
quotient. -/
theorem scaledDiv_of_near {num den k : Nat} {e : Int} (hd : 0 < den)
    (h : |(num : ℚ) / den - k * 2 ^ e| < 2 ^ e / 2) : scaledDiv num den e = k := by
  have hp := zpow_two_pos e
  rw [scaledDiv_eq]
  refine roundDiv_eq (by positivity) ?_
  rw [scaled_ratio, div_sub' hp.ne', abs_div, abs_of_pos hp, div_lt_iff₀ hp, mul_comm _ (k : ℚ)]
  linarith

theorem abs_scaledDiv_sub_le (num : Nat) {den : Nat} (hd : 0 < den) (e : Int) :
    |(scaledDiv num den e : ℚ) - num / den / 2 ^ e| ≤ 1 / 2 := by
  rw [scaledDiv_eq, ← scaled_ratio]
  exact abs_roundDiv_sub_le _ (by positivity)

/-- The power of two that a value is counted in units of: with a significand of 53 bits, or the
least power. -/
structure IsPower (q : ℚ) (e : Int) : Prop where
  least : -1074 ≤ e
  lt : q < 2 ^ 53 * 2 ^ e
  normal : 2 ^ 52 * 2 ^ e ≤ q ∨ e = -1074

theorem zpow_two_succ (e : Int) : (2 : ℚ) ^ (e + 1) = 2 * 2 ^ e := by
  rw [zpow_add_one₀ (by norm_num), mul_comm]

theorem IsPower.unique {q : ℚ} {e e' : Int} (h : IsPower q e) (h' : IsPower q e') : e = e' := by
  have hlt {e e' : Int} (h : IsPower q e) (h' : IsPower q e') : ¬ e < e' := by
    intro hlt
    have hn := h'.normal.resolve_right (by have := h.least; omega)
    have hp : (2 : ℚ) ^ (e + 1) ≤ 2 ^ e' := zpow_le_zpow_right₀ (by norm_num) (by omega)
    rw [zpow_two_succ] at hp
    have := h.lt
    linarith
  exact le_antisymm (Int.not_lt.mp (hlt h' h)) (Int.not_lt.mp (hlt h h'))

theorem isPower_max {q : ℚ} {e : Int} (hlow : 2 ^ 52 * 2 ^ e ≤ q) (hhigh : q < 2 ^ 53 * 2 ^ e) :
    IsPower q (max e (-1074)) := by
  rcases le_total (-1074) e with he | he
  · rw [max_eq_left he]
    exact ⟨he, hhigh, Or.inl hlow⟩
  · rw [max_eq_right he]
    have hp : (2 : ℚ) ^ e ≤ 2 ^ (-1074 : Int) := zpow_le_zpow_right₀ (by norm_num) he
    refine ⟨le_rfl, hhigh.trans_le ?_, Or.inr rfl⟩
    exact mul_le_mul_of_nonneg_left hp (by norm_num)

theorem log2_bounds {n : Nat} (hn : 0 < n) :
    (2 : ℚ) ^ (n.log2 : Int) ≤ n ∧ (n : ℚ) < 2 * 2 ^ (n.log2 : Int) := by
  rw [zpow_natCast]
  have h1 : 2 ^ n.log2 ≤ n := Nat.log2_self_le (by omega)
  have h2 : n < 2 * 2 ^ n.log2 := by
    have := Nat.lt_log2_self (n := n)
    rw [Nat.pow_succ] at this
    omega
  exact ⟨by exact_mod_cast h1, by exact_mod_cast h2⟩

theorem powerOf_spec {num den : Nat} (hn : 0 < num) (hd : 0 < den) :
    IsPower ((num : ℚ) / den) (powerOf num den) := by
  have hq : (0 : ℚ) < den := by exact_mod_cast hd
  obtain ⟨hn1, hn2⟩ := log2_bounds hn
  obtain ⟨hd1, hd2⟩ := log2_bounds hd
  set guess : Int := (num.log2 : Int) - den.log2 - 52 with hg
  -- the logarithms place the quotient between two powers of two
  have hpow : (2 : ℚ) ^ (num.log2 : Int) = 2 ^ 52 * 2 ^ guess * 2 ^ (den.log2 : Int) := by
    rw [← zpow_natCast, ← zpow_add₀ (by norm_num), ← zpow_add₀ (by norm_num)]
    congr 1
    push_cast
    omega
  have hlow : (2 : ℚ) ^ 51 * 2 ^ guess < num / den := by
    rw [lt_div_iff₀ hq]
    have := zpow_two_pos guess
    nlinarith
  have hhigh : (num : ℚ) / den < 2 ^ 53 * 2 ^ guess := by
    rw [div_lt_iff₀ hq]
    have := zpow_two_pos guess
    nlinarith
  have hdef : (if 0 ≤ guess then num < den * pow2 52 * pow2 guess.toNat
      else num * pow2 (-guess).toNat < den * pow2 52) ↔ (num : ℚ) / den < 2 ^ 52 * 2 ^ guess := by
    rw [div_lt_iff₀ hq, zpow_toNat]
    simp only [pow2_eq]
    split_ifs with h
    · have h0 : (-guess).toNat = 0 := by omega
      rw [h0, pow_zero, div_one, mul_comm den, mul_assoc, mul_comm den, ← mul_assoc]
      norm_cast
    · have h0 : guess.toNat = 0 := by omega
      rw [h0, pow_zero, mul_one_div, div_mul_eq_mul_div, lt_div_iff₀ (by positivity), mul_comm den]
      norm_cast
  have htwo : (2 : ℚ) ^ guess = 2 * 2 ^ (guess - 1) := by
    rw [← zpow_two_succ, sub_add_cancel]
  unfold powerOf
  simp only [← hg]
  by_cases hl : (num : ℚ) / den < 2 ^ 52 * 2 ^ guess
  · rw [if_pos (hdef.mpr hl)]
    rw [htwo] at hl hlow
    exact isPower_max (by linarith) (by linarith)
  · rw [if_neg (fun h => hl (hdef.mp h))]
    exact isPower_max (not_lt.mp hl) hhigh

theorem powerOf_eq {num den : Nat} (hn : 0 < num) (hd : 0 < den) {e : Int}
    (h : IsPower ((num : ℚ) / den) e) : powerOf num den = e :=
  (powerOf_spec hn hd).unique h

/-- Rounding counts in units of the quotient's power; a significand of 54 bits moves to the next. -/
theorem ofQuotient_apply (s : Bool) {num den : Nat} {e : Int} (hn : 0 < num) (hd : 0 < den)
    (h : IsPower ((num : ℚ) / den) e) :
    ofQuotient s num den =
      if scaledDiv num den e = 2 ^ 53 then
        if 971 < e + 1 then infinity s else finite s (2 ^ 52) (e + 1)
      else if 971 < e then infinity s else finite s (scaledDiv num den e) e := by
  unfold ofQuotient
  rw [if_neg hn.ne', powerOf_eq hn hd h, ← pow2_eq, ← pow2_eq]
  by_cases hm : scaledDiv num den e = pow2 53
  · simp only [hm, if_true]
  · simp only [hm, if_false]

/-- The number nearest to a quotient depends on the value of the quotient alone. -/
theorem ofQuotient_congr (s : Bool) {num den num' den' : Nat} (hd : 0 < den) (hd' : 0 < den')
    (h : (num : ℚ) / den = num' / den') : ofQuotient s num den = ofQuotient s num' den' := by
  have hq : (0 : ℚ) < den := by exact_mod_cast hd
  have hq' : (0 : ℚ) < den' := by exact_mod_cast hd'
  rcases Nat.eq_zero_or_pos num with rfl | hn
  · have h0 : (num' : ℚ) = 0 := by
      rw [Nat.cast_zero, zero_div, eq_comm, div_eq_zero_iff] at h
      exact h.resolve_right hq'.ne'
    have h0' : num' = 0 := by exact_mod_cast h0
    rw [h0']
    rfl
  · have hn' : 0 < num' := by
      have hp : (0 : ℚ) < num' / den' := h ▸ div_pos (by exact_mod_cast hn) hq
      exact_mod_cast (div_pos_iff_of_pos_right hq').mp hp
    have hscaled (e : Int) : scaledDiv num den e = scaledDiv num' den' e := by
      rw [scaledDiv_eq, scaledDiv_eq]
      refine roundDiv_congr (by positivity) (by positivity) ?_
      rw [scaled_ratio, scaled_ratio, h]
    have hspec := powerOf_spec hn' hd'
    rw [ofQuotient_apply s hn' hd' hspec, ofQuotient_apply s hn hd (h ▸ hspec), hscaled]

/-- The form of a finite number: the significand has 53 bits unless the power is the least. -/
structure Canonical (m : Nat) (e : Int) : Prop where
  lt : m < 2 ^ 53
  least : -1074 ≤ e
  most : e ≤ 971
  normal : 2 ^ 52 ≤ m ∨ e = -1074

/-- What is nearest to a number of 53 bits and too small for as many is nearest to the least. -/
theorem Canonical.eq_of_below {m : Nat} {e : Int} {q : ℚ} (hc : Canonical m e)
    (h : ¬(2 ^ 52 * 2 ^ e ≤ q ∨ e = -1074)) (hnear : m * 2 ^ e - q < 2 ^ e) : m = 2 ^ 52 := by
  obtain ⟨hlt, hne⟩ := not_or.mp h
  have hge := hc.normal.resolve_right hne
  have hp := zpow_two_pos e
  have hle : (m : ℚ) < 2 ^ 52 + 1 := by
    by_contra hgt
    have := mul_le_mul_of_nonneg_right (not_lt.mp hgt) hp.le
    linarith
  have hle' : m < 2 ^ 52 + 1 := by exact_mod_cast hle
  omega

/-- A quotient rounds to a number if it is less than half a unit in the last place from it; below a
power of two the unit is half as large. -/
theorem ofQuotient_eq (s : Bool) {num den m : Nat} {e : Int} (hd : 0 < den) (hm : 0 < m)
    (hc : Canonical m e) (hnear : |(num : ℚ) / den - m * 2 ^ e| < 2 ^ e / 2)
    (hlow : m = 2 ^ 52 → m * 2 ^ e - 2 ^ e / 4 < (num : ℚ) / den) :
    ofQuotient s num den = finite s m e := by
  have hq : (0 : ℚ) < den := by exact_mod_cast hd
  have hp := zpow_two_pos e
  have hm1 : (1 : ℚ) ≤ m := by exact_mod_cast hm
  obtain ⟨h1, h2⟩ := abs_lt.mp hnear
  have hpos : 0 < (num : ℚ) / den := by nlinarith
  have hn : 0 < num := by exact_mod_cast (div_pos_iff_of_pos_right hq).mp hpos
  have hmost : ¬971 < e := not_lt.mpr hc.most
  by_cases hcase : 2 ^ 52 * 2 ^ e ≤ (num : ℚ) / den ∨ e = -1074
  · have hm53 : (m : ℚ) + 1 ≤ 2 ^ 53 := by exact_mod_cast hc.lt
    have hpower : IsPower ((num : ℚ) / den) e := ⟨hc.least, by nlinarith, hcase⟩
    rw [ofQuotient_apply s hn hd hpower, scaledDiv_of_near hd hnear, if_neg hc.lt.ne, if_neg hmost]
  · -- just below a power of two the quotient is counted in the smaller unit, and rounds up to it
    have hm52 := hc.eq_of_below hcase (by linarith)
    obtain ⟨hlt, hne⟩ := not_or.mp hcase
    have hhalf : (2 : ℚ) ^ e = 2 * 2 ^ (e - 1) := by rw [← zpow_two_succ, sub_add_cancel]
    have hp' := zpow_two_pos (e - 1)
    have hl := hlow hm52
    rw [hm52] at hl h2
    push_cast at hl h2
    rw [hhalf] at hlt hl
    have hpower : IsPower ((num : ℚ) / den) (e - 1) :=
      ⟨by have := hc.least; omega, by linarith, Or.inl (by linarith)⟩
    have hnear' : |(num : ℚ) / den - (2 ^ 53 : Nat) * 2 ^ (e - 1)| < 2 ^ (e - 1) / 2 := by
      push_cast
      rw [abs_lt]
      constructor <;> linarith
    rw [ofQuotient_apply s hn hd hpower, scaledDiv_of_near hd hnear', if_pos rfl, sub_add_cancel,
      if_neg hmost, hm52]

/-- A quotient counted in units of its power has a significand of 53 bits, unless the power is the
least or it rounds up to the next power of two. -/
theorem IsPower.scaledDiv_bounds {num den : Nat} {e : Int} (hd : 0 < den)
    (h : IsPower ((num : ℚ) / den) e) :
    scaledDiv num den e ≤ 2 ^ 53 ∧ (2 ^ 52 ≤ scaledDiv num den e ∨ e = -1074) := by
  have hp := zpow_two_pos e
  obtain ⟨h1, h2⟩ := abs_le.mp (abs_scaledDiv_sub_le num hd e)
  constructor
  · have hlt : (num : ℚ) / den / 2 ^ e < 2 ^ 53 := (div_lt_iff₀ hp).mpr h.lt
    have : (scaledDiv num den e : ℚ) < 2 ^ 53 + 1 := by linarith
    have : scaledDiv num den e < 2 ^ 53 + 1 := by exact_mod_cast this
    omega
  · refine h.normal.imp_left fun hn => ?_
    have hge : (2 : ℚ) ^ 52 ≤ num / den / 2 ^ e := (le_div_iff₀ hp).mpr hn
    have : (2 : ℚ) ^ 52 < scaledDiv num den e + 1 := by linarith
    have : 2 ^ 52 < scaledDiv num den e + 1 := by exact_mod_cast this
    omega

/-- Rounding gives an infinite number or a finite one in its form. -/
theorem ofQuotient_canonical (s : Bool) (num : Nat) {den : Nat} (hd : 0 < den) :
    ofQuotient s num den = infinity s ∨
      ∃ m e, ofQuotient s num den = finite s m e ∧ Canonical m e := by
  rcases Nat.eq_zero_or_pos num with rfl | hn
  · exact Or.inr ⟨0, -1074, rfl, by norm_num, le_rfl, by norm_num, Or.inr rfl⟩
  have hspec := powerOf_spec hn hd
  rw [ofQuotient_apply s hn hd hspec]
  obtain ⟨hle, hge⟩ := hspec.scaledDiv_bounds hd
  have hleast := hspec.least
  split_ifs with hm he he
  · exact Or.inl rfl
  · exact Or.inr ⟨_, _, rfl, by norm_num, by omega, by omega, Or.inl le_rfl⟩
  · exact Or.inl rfl
  · exact Or.inr ⟨_, _, rfl, lt_of_le_of_ne hle hm, hleast, by omega, hge⟩

/-- The sign plays no part in rounding. -/
theorem ofQuotient_sign {num den m : Nat} {e : Int}
    (h : ofQuotient false num den = finite false m e) (s : Bool) :
    ofQuotient s num den = finite s m e := by
  unfold ofQuotient at h ⊢
  split_ifs at h ⊢ with h0
  · cases h
    rfl
  · simp only at h ⊢
    split_ifs at h ⊢ with h1 h2 h2
    · cases h
      rfl
    · cases h
      rfl

end Walkthrough.Binary64
