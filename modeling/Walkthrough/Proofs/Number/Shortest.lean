import Mathlib.Algebra.Order.Floor.Semifield
import Mathlib.Data.Rat.Floor
import Mathlib.Tactic.Ring
import Walkthrough.Number.Shortest
import Walkthrough.Proofs.Number.Rounding
/-!
The decimal of a floating-point number is found, and reads back as that number: seventeen digits are
close enough to it. What a decimal reads back as depends on its value alone.
-/

namespace Walkthrough.Binary64

theorem zpow_ten_pos (x : Int) : (0 : ℚ) < 10 ^ x := zpow_pos (by norm_num) x

theorem length_toDigits_bounds {n : Nat} (hn : 0 < n) :
    (10 : ℚ) ^ (((Nat.toDigits 10 n).length : Int) - 1) ≤ n ∧
      (n : ℚ) < 10 ^ ((Nat.toDigits 10 n).length : Int) := by
  have hpos : 0 < (Nat.toDigits 10 n).length := Nat.length_toDigits_pos
  constructor
  · have hle : 10 ^ ((Nat.toDigits 10 n).length - 1) ≤ n := by
      rcases Nat.lt_or_ge 1 (Nat.toDigits 10 n).length with h | h
      · by_contra hlt
        have := (Nat.length_toDigits_le_iff (by decide) (by omega)).mpr (Nat.not_le.mp hlt)
        omega
      · rw [show (Nat.toDigits 10 n).length - 1 = 0 by omega]
        exact hn
    rw [← Nat.cast_pred hpos, zpow_natCast]
    exact_mod_cast hle
  · have hlt := (Nat.length_toDigits_le_iff (by decide) hpos).mp (Nat.le_refl _)
    rw [zpow_natCast]
    exact_mod_cast hlt

theorem lt_of_zpow_lt {a b : Int} {q : ℚ} (h : (10 : ℚ) ^ a ≤ q) (h' : q < 10 ^ b) : a < b :=
  (zpow_lt_zpow_iff_right₀ (by norm_num)).mp (h.trans_lt h')

/-- The place of the first digit behind the point of a decimal's value. -/
def sizeOf (digits : Nat) (exponent : Int) : Int :=
  (Nat.toDigits 10 digits).length + exponent

theorem sizeOf_bounds {d : Nat} (hd : 0 < d) (x : Int) :
    (10 : ℚ) ^ (sizeOf d x - 1) ≤ d * 10 ^ x ∧ (d : ℚ) * 10 ^ x < 10 ^ sizeOf d x := by
  obtain ⟨hlow, hhigh⟩ := length_toDigits_bounds hd
  have hx := zpow_ten_pos x
  unfold sizeOf
  constructor
  · rw [add_sub_right_comm, zpow_add₀ (by norm_num)]
    exact mul_le_mul_of_nonneg_right hlow hx.le
  · rw [zpow_add₀ (by norm_num)]
    exact mul_lt_mul_of_pos_right hhigh hx

theorem ofDecimal_eq (s : Bool) (d : Nat) (x : Int) :
    ofDecimal s d x =
      if d = 0 ∨ sizeOf d x < -400 then finite s 0 (-1074)
      else if 400 < sizeOf d x then infinity s
      else ofQuotient s (d * 10 ^ x.toNat) (10 ^ (-x).toNat) := by
  have hq : (if 0 ≤ x then ofQuotient s (d * pow10 x.toNat) 1
      else ofQuotient s d (pow10 (-x).toNat)) =
      ofQuotient s (d * 10 ^ x.toNat) (10 ^ (-x).toNat) := by
    simp only [pow10_eq]
    split_ifs with hx
    · rw [show (-x).toNat = 0 by omega, pow_zero]
    · rw [show x.toNat = 0 by omega, pow_zero, mul_one]
  rw [← hq]
  rfl

theorem decimal_ratio (d : Nat) (x : Int) :
    ((d * 10 ^ x.toNat : Nat) : ℚ) / ((10 ^ (-x).toNat : Nat) : ℚ) = d * 10 ^ x := by
  rw [zpow_toNat]
  push_cast
  ring

/-- What a decimal reads back as depends on its value alone. -/
theorem ofDecimal_congr (s : Bool) {d d' : Nat} {x x' : Int}
    (h : (d : ℚ) * 10 ^ x = d' * 10 ^ x') : ofDecimal s d x = ofDecimal s d' x' := by
  have hzero {d d' : Nat} {x x' : Int} (h : (d : ℚ) * 10 ^ x = d' * 10 ^ x') (hd : d = 0) :
      d' = 0 := by
    have hx' := zpow_ten_pos x'
    rw [hd, Nat.cast_zero, zero_mul, eq_comm, mul_eq_zero] at h
    exact_mod_cast h.resolve_right hx'.ne'
  rw [ofDecimal_eq, ofDecimal_eq]
  rcases Nat.eq_zero_or_pos d with hd | hd
  · rw [if_pos (.inl hd), if_pos (.inl (hzero h hd))]
  · have hd' : 0 < d' := Nat.pos_of_ne_zero fun hd' => by
      have := hzero h.symm hd'
      omega
    have hsize : sizeOf d x = sizeOf d' x' := by
      obtain ⟨h1, h2⟩ := sizeOf_bounds hd x
      obtain ⟨h1', h2'⟩ := sizeOf_bounds hd' x'
      rw [h] at h1 h2
      have := lt_of_zpow_lt h1 h2'
      have := lt_of_zpow_lt h1' h2
      omega
    have hq : ofQuotient s (d * 10 ^ x.toNat) (10 ^ (-x).toNat) =
        ofQuotient s (d' * 10 ^ x'.toNat) (10 ^ (-x').toNat) := by
      refine ofQuotient_congr s (by positivity) (by positivity) ?_
      rw [decimal_ratio, decimal_ratio, h]
    rw [hsize, hq]
    simp only [hd.ne', hd'.ne', false_or]

/-- Half the unit of any number is at least some power of ten. -/
theorem zpow_ten_le {e : Int} (he : -1074 ≤ e) : (10 : ℚ) ^ (-324 : Int) ≤ 2 ^ e / 2 := by
  have h : pow2 1075 ≤ pow10 324 := by decide +kernel
  have hq : ((pow2 1075 : Nat) : ℚ) ≤ (pow10 324 : Nat) := Nat.cast_le.mpr h
  rw [pow2_eq, pow10_eq, Nat.cast_pow, Nat.cast_pow, ← zpow_natCast, ← zpow_natCast] at hq
  have htwo : (2 : ℚ) ^ e = 2 * 2 ^ (e - 1) := by rw [← zpow_two_succ, sub_add_cancel]
  rw [htwo, mul_div_cancel_left₀ _ (by norm_num), zpow_neg]
  refine (inv_anti₀ (by positivity) hq).trans ?_
  rw [← zpow_neg]
  exact zpow_le_zpow_right₀ (by norm_num) (by push_cast; omega)

/-- The bound of all numbers, twice, is at most some power of ten. -/
theorem le_zpow_ten {e : Int} (he : e ≤ 971) : (2 : ℚ) ^ 54 * 2 ^ e ≤ 10 ^ (309 : Int) := by
  have h : pow2 1025 ≤ pow10 309 := by decide +kernel
  have hq : ((pow2 1025 : Nat) : ℚ) ≤ (pow10 309 : Nat) := Nat.cast_le.mpr h
  rw [pow2_eq, pow10_eq, Nat.cast_pow, Nat.cast_pow, ← zpow_natCast, ← zpow_natCast] at hq
  rw [← zpow_natCast, ← zpow_add₀ (by norm_num)]
  exact (zpow_le_zpow_right₀ (by norm_num) (by push_cast; omega)).trans hq

/-- A decimal less than half a unit in the last place from a number reads back as it. -/
theorem ofDecimal_eq_finite (s : Bool) {d m : Nat} {x e : Int} (hm : 0 < m) (hc : Canonical m e)
    (hnear : |(d : ℚ) * 10 ^ x - m * 2 ^ e| < 2 ^ e / 2)
    (hlow : m = 2 ^ 52 → m * 2 ^ e - 2 ^ e / 4 < (d : ℚ) * 10 ^ x) :
    ofDecimal s d x = finite s m e := by
  obtain ⟨h1, h2⟩ := abs_lt.mp hnear
  have hp := zpow_two_pos e
  have hm1 : (1 : ℚ) ≤ m := by exact_mod_cast hm
  have hm53 : (m : ℚ) < 2 ^ 53 := by exact_mod_cast hc.lt
  -- the value is in the range in which the size of a decimal does not decide
  have hmin : (10 : ℚ) ^ (-324 : Int) ≤ d * 10 ^ x := by
    have hle : (2 : ℚ) ^ e ≤ m * 2 ^ e := le_mul_of_one_le_left hp.le hm1
    exact (zpow_ten_le hc.least).trans (by linarith)
  have hmax : (d : ℚ) * 10 ^ x < 10 ^ (309 : Int) := by
    have hlt : (m : ℚ) * 2 ^ e < 2 ^ 53 * 2 ^ e := mul_lt_mul_of_pos_right hm53 hp
    exact lt_of_lt_of_le (by linarith) (le_zpow_ten hc.most)
  have hd : 0 < d := Nat.pos_of_ne_zero fun hd => by
    rw [hd, Nat.cast_zero, zero_mul] at hmin
    exact absurd hmin (not_le.mpr (zpow_ten_pos _))
  obtain ⟨hs1, hs2⟩ := sizeOf_bounds hd x
  have hs1' := lt_of_zpow_lt hs1 hmax
  have hs2' := lt_of_zpow_lt hmin hs2
  rw [ofDecimal_eq, if_neg (by omega), if_neg (by omega)]
  rw [← decimal_ratio] at hnear hlow
  exact ofQuotient_eq s (by positivity) hm hc hnear hlow

/-- The sign plays no part in reading back. -/
theorem ofDecimal_sign {d m : Nat} {x e : Int} (h : ofDecimal false d x = finite false m e)
    (s : Bool) : ofDecimal s d x = finite s m e := by
  rw [ofDecimal_eq] at h ⊢
  split_ifs at h ⊢ with h0 h1
  · cases h
    rfl
  · exact ofQuotient_sign h s

/-- A value has as many digits before the point as its whole part, if that is not nought. -/
theorem length_toDigits_floor {q : ℚ} (hq : 1 ≤ q) :
    (10 : ℚ) ^ (((Nat.toDigits 10 ⌊q⌋₊).length : Int) - 1) ≤ q ∧
      q < 10 ^ ((Nat.toDigits 10 ⌊q⌋₊).length : Int) := by
  obtain ⟨hlow, hhigh⟩ := length_toDigits_bounds (Nat.floor_pos.mpr hq)
  refine ⟨hlow.trans (Nat.floor_le (by linarith)), (Nat.lt_floor_add_one q).trans_le ?_⟩
  rw [zpow_natCast] at hhigh ⊢
  have hhigh' : ⌊q⌋₊ < 10 ^ (Nat.toDigits 10 ⌊q⌋₊).length := by exact_mod_cast hhigh
  exact_mod_cast hhigh'

/-- Scaled by a power of ten any number has a whole part. -/
theorem one_le_scaled {m : Nat} {e : Int} (hm : 0 < m) (he : -1074 ≤ e) :
    (1 : ℚ) ≤ m * 2 ^ e * 10 ^ (400 : Int) := by
  have hm1 : (1 : ℚ) ≤ m := by exact_mod_cast hm
  have hp : (2 : ℚ) ^ e / 2 ≤ m * 2 ^ e := by
    have := zpow_two_pos e
    nlinarith
  calc (1 : ℚ)
    _ ≤ 10 ^ (76 : Int) := one_le_zpow₀ (by norm_num) (by norm_num)
    _ = 10 ^ (-324 : Int) * 10 ^ (400 : Int) := by rw [← zpow_add₀ (by norm_num)]; rfl
    _ ≤ m * 2 ^ e * 10 ^ (400 : Int) :=
      mul_le_mul_of_nonneg_right ((zpow_ten_le he).trans hp) (by positivity)

theorem firstPlace_bounds {m : Nat} {e : Int} (hm : 0 < m) (he : -1074 ≤ e) :
    (10 : ℚ) ^ firstPlace m e ≤ m * 2 ^ e ∧ (m : ℚ) * 2 ^ e < 10 ^ (firstPlace m e + 1) := by
  unfold firstPlace
  simp only [pow2_eq, pow10_eq]
  split_ifs with h
  · have hv : ((m * 2 ^ e.toNat : Nat) : ℚ) = m * 2 ^ e := by
      rw [zpow_toNat 2 e, show (-e).toNat = 0 by omega, pow_zero, div_one]
      push_cast
      rfl
    have hb := length_toDigits_bounds (n := m * 2 ^ e.toNat) (by positivity)
    rw [hv] at hb
    rwa [sub_add_cancel]
  · have hten : (0 : ℚ) < 10 ^ (400 : Int) := by positivity
    have hv : (m * 2 ^ e * 10 ^ (400 : Int) : ℚ) =
        ((m * 10 ^ 400 : Nat) : ℚ) / (2 ^ (-e).toNat : Nat) := by
      rw [zpow_toNat 2 e, show e.toNat = 0 by omega, pow_zero, mul_one_div, div_mul_eq_mul_div,
        Nat.cast_mul, Nat.cast_pow, Nat.cast_pow, zpow_ofNat, Nat.cast_ofNat, Nat.cast_ofNat]
    have hfloor : m * 10 ^ 400 / 2 ^ (-e).toNat = ⌊(m * 2 ^ e * 10 ^ (400 : Int) : ℚ)⌋₊ := by
      rw [hv, Nat.floor_div_eq_div]
    obtain ⟨hb1, hb2⟩ := length_toDigits_floor (one_le_scaled hm he)
    rw [hfloor]
    constructor
    · refine le_of_mul_le_mul_right ?_ hten
      rw [← zpow_add₀ (by norm_num), sub_add]
      exact hb1
    · refine lt_of_mul_lt_mul_right ?_ hten.le
      rw [← zpow_add₀ (by norm_num), add_assoc, sub_add]
      exact hb2.trans_eq (by rw [show (401 : Int) - (1 + 400) = 0 by rfl, sub_zero])

theorem inUnits_ratio (m : Nat) (e place : Int) :
    ((inUnits m e place).1 : ℚ) / (inUnits m e place).2 = m * 2 ^ e / 10 ^ place := by
  unfold inUnits
  rw [zpow_toNat 2 e, zpow_toNat 10 place]
  simp only [pow2_eq, pow10_eq]
  push_cast
  field_simp

theorem inUnits_den_pos (m : Nat) (e place : Int) : 0 < (inUnits m e place).2 :=
  Nat.mul_pos (pow2_pos _) (pow10_pos _)

theorem onGrid?_readsBack {m : Nat} {e place : Int} {d : Decimal} (h : onGrid? m e place = some d) :
    ofDecimal false d.digits d.exponent = finite false m e := by
  unfold onGrid? at h
  simp only [beq_iff_eq] at h
  split_ifs at h with h1 h2
  all_goals
    cases h
    assumption

/-- The neighbour that is tried first is the nearest. -/
theorem onGrid?_isSome {m : Nat} {e place : Int}
    (h : ofDecimal false (roundDiv (inUnits m e place).1 (inUnits m e place).2) place =
      finite false m e) : (onGrid? m e place).isSome := by
  have hnear (num den : Nat) :
      (if 2 * (num % den) > den || (2 * (num % den) == den && num / den % 2 == 1)
        then num / den + 1 else num / den) = roundDiv num den := by
    simp only [roundDiv, Bool.or_eq_true, Bool.and_eq_true, decide_eq_true_eq, beq_iff_eq]
    split_ifs <;> omega
  unfold onGrid?
  dsimp only
  rw [hnear, if_pos (by rw [h, beq_self_eq_true])]
  rfl

/-- At seventeen digits the nearest decimal reads back. -/
theorem onGrid?_seventeen {m : Nat} {e : Int} (hm : 0 < m) (hc : Canonical m e) :
    (onGrid? m e (firstPlace m e - 16)).isSome := by
  refine onGrid?_isSome ?_
  set place := firstPlace m e - 16 with hplace
  have hround := abs_roundDiv_sub_le (inUnits m e place).1 (inUnits_den_pos m e place)
  generalize roundDiv (inUnits m e place).1 (inUnits m e place).2 = d at hround ⊢
  rw [inUnits_ratio] at hround
  have hu := zpow_ten_pos place
  have hp := zpow_two_pos e
  have hnear : |(d : ℚ) * 10 ^ place - m * 2 ^ e| ≤ 10 ^ place / 2 := by
    have he : (d : ℚ) * 10 ^ place - m * 2 ^ e = (d - m * 2 ^ e / 10 ^ place) * 10 ^ place := by
      field_simp
    rw [he, abs_mul, abs_of_pos hu]
    linarith [mul_le_mul_of_nonneg_right hround hu.le]
  have hunit : (10 : ℚ) ^ 16 * 10 ^ place ≤ m * 2 ^ e := by
    have hf := (firstPlace_bounds hm hc.least).1
    rwa [show firstPlace m e = 16 + place by omega, zpow_add₀ (by norm_num)] at hf
  have hm53 : (m : ℚ) < 2 ^ 53 := by exact_mod_cast hc.lt
  refine ofDecimal_eq_finite false hm hc (hnear.trans_lt ?_) fun h52 => ?_
  · nlinarith
  · obtain ⟨h1, -⟩ := abs_le.mp hnear
    rw [h52] at hunit h1 ⊢
    push_cast at hunit h1 ⊢
    linarith

/-- The shortest decimal of a number reads back as the number. -/
theorem shortest_readsBack {m : Nat} {e : Int} (hm : 0 < m) (hc : Canonical m e) :
    ofDecimal false (shortest m e).digits (shortest m e).exponent = finite false m e := by
  unfold shortest
  simp only [List.findSome?_map]
  rcases hs : (List.range 17).findSome? (onGrid? m e ∘ fun n : Nat => firstPlace m e - n)
    with _ | d
  · have hn : onGrid? m e (firstPlace m e - 16) = none :=
      List.findSome?_eq_none_iff.mp hs 16 (by decide)
    have hsome := onGrid?_seventeen hm hc
    rw [hn] at hsome
    cases hsome
  · obtain ⟨n, -, hd⟩ := List.exists_of_findSome?_eq_some hs
    exact onGrid?_readsBack hd

theorem shortest_digits_pos {m : Nat} {e : Int} (hm : 0 < m) (hc : Canonical m e) :
    0 < (shortest m e).digits := by
  refine Nat.pos_of_ne_zero fun hd => ?_
  have h := shortest_readsBack hm hc
  rw [hd] at h
  cases h
  exact absurd hm (Nat.lt_irrefl 0)

end Walkthrough.Binary64
