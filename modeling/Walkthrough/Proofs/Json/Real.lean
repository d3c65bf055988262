import Walkthrough.Proofs.Json.Scalar
import Walkthrough.Proofs.Number.Shortest
import Walkthrough.Timing
/-!
Floating-point numbers read back from the text that is written for them.
-/

namespace Walkthrough.Json

open Binary64

/-- Digits of a number, the first of which counts. -/
structure Significant (ds : List Char) : Prop where
  digits : ∀ c ∈ ds, isAsciiDigit c = true
  head : ∃ c t, ds = c :: t ∧ c ≠ '0'

namespace Significant

variable {ds es : List Char}

theorem append (h : Significant ds) (he : ∀ c ∈ es, isAsciiDigit c = true) :
    Significant (ds ++ es) := by
  obtain ⟨c, t, rfl, hc⟩ := h.head
  refine ⟨fun d hd => ?_, c, t ++ es, rfl, hc⟩
  rcases List.mem_append.mp hd with hd | hd
  · exact h.digits d hd
  · exact he d hd

theorem take (h : Significant ds) {n : Nat} (hn : 0 < n) : Significant (ds.take n) := by
  obtain ⟨c, t, rfl, hc⟩ := h.head
  refine ⟨fun d hd => h.digits d (List.mem_of_mem_take hd), c, t.take (n - 1), ?_, hc⟩
  rw [List.take_cons hn]

theorem ne_nil (h : Significant ds) : ds ≠ [] := by
  obtain ⟨c, t, rfl, -⟩ := h.head
  exact List.cons_ne_nil c t

end Significant

theorem isAsciiDigit_zeros (n : Nat) : ∀ c ∈ List.replicate n '0', isAsciiDigit c = true := by
  intro c hc
  rw [List.eq_of_mem_replicate hc]
  rfl

theorem asciiValue_append (ds es : List Char) :
    asciiValue (ds ++ es) = asciiValue ds * 10 ^ es.length + asciiValue es := by
  induction es using List.reverseRecOn with
  | nil => simp [asciiValue]
  | append_singleton es c ih =>
    have hlast (xs : List Char) :
        asciiValue (xs ++ [c]) = 10 * asciiValue xs + (c.toNat - '0'.toNat) := by
      simp [asciiValue, List.foldl_append]
    rw [← List.append_assoc, hlast, hlast, ih, List.length_append, List.length_singleton, pow_succ]
    ring

theorem asciiValue_zeros (n : Nat) : asciiValue (List.replicate n '0') = 0 := by
  induction n with
  | zero => rfl
  | succ n ih =>
    rw [List.replicate_succ', asciiValue_append, ih, Nat.zero_mul]
    rfl

theorem asciiValue_zeros_append (n : Nat) (ds : List Char) :
    asciiValue (List.replicate n '0' ++ ds) = asciiValue ds := by
  rw [asciiValue_append, asciiValue_zeros, Nat.zero_mul, Nat.zero_add]

theorem fraction?_digits {ds r : List Char} (hn : ds ≠ [])
    (hd : ∀ c ∈ ds, isAsciiDigit c = true) (hr : NoDigit r) :
    fraction? ('.' :: ds ++ r) = some (ds, r) := by
  obtain ⟨ht, hdrop⟩ := takeWhile_digits hd hr
  obtain ⟨c, t, rfl⟩ := List.exists_cons_of_ne_nil hn
  simp only [List.cons_append, fraction?] at ht hdrop ⊢
  rw [ht, hdrop]

theorem exponent?_digits {x : Int} {ds r : List Char} (hn : ds ≠ [])
    (hd : ∀ c ∈ ds, isAsciiDigit c = true) (hv : asciiValue ds = x.natAbs) (hr : NoDigit r) :
    exponent? ('e' :: (if x < 0 then '-' else '+') :: ds ++ r) = some (x, r) := by
  obtain ⟨ht, hdrop⟩ := takeWhile_digits hd hr
  obtain ⟨c, t, rfl⟩ := List.exists_cons_of_ne_nil hn
  by_cases hx : x < 0
  · have he : exponent? ('e' :: '-' :: (c :: t ++ r)) = some (-(asciiValue (c :: t) : Int), r) := by
      simp only [exponent?, true_or, if_true, ht, hdrop]
    rw [if_pos hx, List.cons_append, List.cons_append, he, hv]
    congr 2
    omega
  · have he : exponent? ('e' :: '+' :: (c :: t ++ r)) = some ((asciiValue (c :: t) : Int), r) := by
      simp only [exponent?, true_or, if_true, ht, hdrop]
      rfl
    rw [if_neg hx, List.cons_append, List.cons_append, he, hv]
    congr 2
    omega

/-- Digits are read as a whole part, whatever follows them that is no digit. -/
def Whole (ds : List Char) : Prop := ∀ r, NoDigit r → wholePart? (ds ++ r) = some (ds, r)

theorem whole_zero : Whole ['0'] := fun _ _ => rfl

theorem Significant.whole {ds : List Char} (h : Significant ds) : Whole ds := by
  intro r hr
  obtain ⟨c, t, rfl, hc⟩ := h.head
  obtain ⟨ht, hd⟩ := takeWhile_digits (fun d hd => h.digits d (List.mem_cons_of_mem c hd)) hr
  rw [List.cons_append, wholePart?]
  · rw [if_pos (h.digits c List.mem_cons_self), ht, hd]
  · exact hc

/-- A text is read as a decimal of a value. -/
def ReadsAs (s : Bool) (text : List Char) (q : ℚ) : Prop :=
  ∀ r, Stops r → ∃ (n : Nat) (x : Int), (n : ℚ) * 10 ^ x = q ∧
    unsigned? s (text ++ r) = some (.ok (.real (.ofDecimal s n x), r))

theorem ReadsAs.of_eq {s : Bool} {text text' : List Char} {q q' : ℚ} (h : ReadsAs s text q)
    (ht : text' = text) (hq : q' = q) : ReadsAs s text' q' := by
  rw [ht, hq]
  exact h

/-- A number with a point and no exponent. -/
theorem readsAs_fraction (s : Bool) {ds fs : List Char} (hw : Whole ds) (hn : fs ≠ [])
    (hd : ∀ c ∈ fs, isAsciiDigit c = true) :
    ReadsAs s (ds ++ '.' :: fs) (asciiValue (ds ++ fs) * 10 ^ (-fs.length : Int)) := by
  intro r hr
  refine ⟨_, _, rfl, ?_⟩
  have hpoint : NoDigit ('.' :: fs ++ r) := by
    rintro c ⟨⟩
    rfl
  rw [List.append_assoc, unsigned?, hw _ hpoint]
  simp only [Option.bind_eq_bind, Option.bind_some, fraction?_digits hn hd hr.noDigit,
    Option.elim_some, exponent?_of_stops hr, Option.elim_none, zero_sub]

/-- A number with an exponent, with or without a point before it. -/
theorem readsAs_exponent (s : Bool) {ds fs es : List Char} {x : Int} (hw : Whole ds)
    (hd : ∀ c ∈ fs, isAsciiDigit c = true) (hn : es ≠ [])
    (he : ∀ c ∈ es, isAsciiDigit c = true) (hv : asciiValue es = x.natAbs) :
    ReadsAs s (ds ++ ((if fs = [] then [] else '.' :: fs) ++
      'e' :: (if x < 0 then '-' else '+') :: es))
      (asciiValue (ds ++ fs) * 10 ^ (x - fs.length)) := by
  intro r hr
  refine ⟨_, _, rfl, ?_⟩
  have hexp := exponent?_digits hn he hv hr.noDigit
  have hmark : NoDigit ('e' :: (if x < 0 then '-' else '+') :: es ++ r) := by
    rintro c ⟨⟩
    rfl
  rw [List.append_assoc, List.append_assoc, unsigned?]
  by_cases hfs : fs = []
  · have hfrac : fraction? ('e' :: (if x < 0 then '-' else '+') :: es ++ r) = none := rfl
    rw [if_pos hfs, List.nil_append, hw _ hmark, hfs]
    simp only [Option.bind_eq_bind, Option.bind_some, hfrac, Option.elim_none, hexp,
      Option.elim_some, List.append_nil]
  · have hpoint : NoDigit ('.' :: fs ++ ('e' :: (if x < 0 then '-' else '+') :: es ++ r)) := by
      rintro c ⟨⟩
      rfl
    rw [if_neg hfs, hw _ hpoint]
    simp only [Option.bind_eq_bind, Option.bind_some, fraction?_digits hfs hd hmark,
      Option.elim_some, hexp]

section

variable {ds : List Char} {point : Int}

theorem readsAs_positional (s : Bool) (h : Significant ds) :
    ReadsAs s (positional ds point) (asciiValue ds * 10 ^ (point - ds.length)) := by
  unfold positional
  split_ifs with h1 h2
  · -- the point stands before the digits, with noughts between
    set zeros := List.replicate (-point).toNat '0' with hz
    have hd : ∀ c ∈ zeros ++ ds, isAsciiDigit c = true := by
      intro c hc
      rcases List.mem_append.mp hc with hc | hc
      · exact isAsciiDigit_zeros _ c hc
      · exact h.digits c hc
    refine (readsAs_fraction s whole_zero (List.append_ne_nil_of_right_ne_nil zeros h.ne_nil)
      hd).of_eq (by simp) ?_
    have hv : asciiValue (['0'] ++ (zeros ++ ds)) = asciiValue ds := by
      rw [asciiValue_append, asciiValue_zeros_append]
      simp [asciiValue]
    rw [hv, List.length_append, hz, List.length_replicate]
    congr 2
    push_cast
    omega
  · -- the point stands behind the digits, with noughts between
    obtain ⟨k, hk⟩ := Int.eq_ofNat_of_zero_le (show 0 ≤ point - ds.length by omega)
    have hpoint : point.toNat - ds.length = k := by omega
    refine (readsAs_fraction s (h.append (isAsciiDigit_zeros k)).whole (List.cons_ne_nil '0' [])
      (isAsciiDigit_zeros 1)).of_eq (by simp [hpoint]) ?_
    rw [asciiValue_append, asciiValue_append, asciiValue_zeros, List.length_replicate, hk,
      show asciiValue ['0'] = 0 by rfl, zpow_natCast, List.length_singleton]
    push_cast
    rw [zpow_neg, zpow_one]
    ring
  · -- the point stands among the digits
    obtain ⟨k, rfl⟩ := Int.eq_ofNat_of_zero_le (show 0 ≤ point by omega)
    rw [Int.toNat_natCast]
    refine (readsAs_fraction s (h.take (by omega)).whole (fun hn => ?_)
      fun c hc => h.digits c (List.mem_of_mem_drop hc)).of_eq rfl ?_
    · have := List.length_drop (i := k) (l := ds)
      rw [hn, List.length_nil] at this
      omega
    · rw [List.take_append_drop, List.length_drop]
      congr 2
      omega

theorem readsAs_exponential (s : Bool) (h : Significant ds) :
    ReadsAs s (exponential ds point) (asciiValue ds * 10 ^ (point - ds.length)) := by
  obtain ⟨d, fs, rfl, hd⟩ := h.head
  set x := point - 1 with hx
  set es := List.replicate (2 - (Nat.toDigits 10 x.natAbs).length) '0' ++ Nat.toDigits 10 x.natAbs
    with hes
  have hdigits : ∀ c ∈ es, isAsciiDigit c = true := by
    intro c hc
    rcases List.mem_append.mp hc with hc | hc
    · exact isAsciiDigit_zeros _ c hc
    · exact isAsciiDigit_of_mem_toDigits hc
  have hvalue : asciiValue es = x.natAbs := by
    rw [hes, asciiValue_zeros_append, asciiValue_toDigits]
  have hone : Significant [d] := h.take (n := 1) (by decide)
  refine (readsAs_exponent s hone.whole (fun c hc => h.digits c (List.mem_cons_of_mem d hc))
    (List.append_ne_nil_of_right_ne_nil _ Nat.toDigits_ne_nil) hdigits hvalue).of_eq ?_ ?_
  · cases fs <;> simp [exponential, ← hx, ← hes]
  · rw [List.singleton_append, List.length_cons]
    congr 2
    push_cast
    omega

end

/-- Digits are what is left of them without the noughts at their end, and these noughts. -/
theorem eq_append_zeros (ds : List Char) :
    ∃ k, ds = (ds.reverse.dropWhile (· == '0')).reverse ++ List.replicate k '0' := by
  have hzeros : (ds.reverse.takeWhile (· == '0')).reverse =
      List.replicate (ds.reverse.takeWhile (· == '0')).length '0' := by
    rw [List.eq_replicate_iff, List.length_reverse]
    refine ⟨rfl, fun b hb => ?_⟩
    simpa using List.mem_takeWhile_imp (List.mem_reverse.mp hb)
  refine ⟨(ds.reverse.takeWhile (· == '0')).length, ?_⟩
  rw [← hzeros, ← List.reverse_append, List.takeWhile_append_dropWhile, List.reverse_reverse]

/-- The digits of a decimal without the noughts at their end. -/
theorem digitText_spec {d : Decimal} (hd : 0 < d.digits) : Significant d.digitText ∧
    ∃ k, Nat.toDigits 10 d.digits = d.digitText ++ List.replicate k '0' := by
  obtain ⟨c, t, htext, hc⟩ := toDigits_eq_cons hd
  obtain ⟨k, hsplit⟩ := eq_append_zeros (Nat.toDigits 10 d.digits)
  set kept := ((Nat.toDigits 10 d.digits).reverse.dropWhile (· == '0')).reverse with hkept
  have hne : kept ≠ [] := by
    intro hnil
    rw [hnil, List.nil_append] at hsplit
    have hmem : c ∈ List.replicate k '0' := by
      rw [← hsplit, htext]
      exact List.mem_cons_self
    exact hc (List.eq_of_mem_replicate hmem)
  have hkeep : d.digitText = kept := by
    unfold Decimal.digitText
    rw [← hkept]
    cases hk : kept with
    | nil => exact absurd hk hne
    | cons c t => rfl
  rw [hkeep]
  refine ⟨⟨fun b hb => ?_, ?_⟩, k, hsplit⟩
  · have hmem : b ∈ Nat.toDigits 10 d.digits := by
      rw [hsplit]
      exact List.mem_append_left _ hb
    exact isAsciiDigit_of_mem_toDigits hmem
  · obtain ⟨b, u, hb⟩ := List.exists_cons_of_ne_nil hne
    rw [hb, htext, List.cons_append, List.cons.injEq] at hsplit
    exact ⟨b, u, hb, hsplit.1 ▸ hc⟩

theorem digitText_value {d : Decimal} (hd : 0 < d.digits) :
    (asciiValue d.digitText : ℚ) * 10 ^ (d.point - d.digitText.length) =
      d.digits * 10 ^ d.exponent := by
  obtain ⟨-, k, hk⟩ := digitText_spec hd
  have hv := asciiValue_toDigits d.digits
  rw [hk, asciiValue_append, asciiValue_zeros, List.length_replicate, Nat.add_zero] at hv
  have hl : d.point - d.digitText.length = k + d.exponent := by
    rw [Decimal.point, hk, List.length_append, List.length_replicate]
    push_cast
    omega
  rw [hl, zpow_add₀ (by norm_num), zpow_natCast, ← hv]
  push_cast
  ring

/-- The text of a number's decimal. -/
def decimalText (m : Nat) (e : Int) : List Char :=
  if m = 0 then "0.0".toList else
  let d := shortest m e
  if -4 < d.point ∧ d.point ≤ 16 then positional d.digitText d.point
  else exponential d.digitText d.point

theorem text_finite (s : Bool) (m : Nat) (e : Int) :
    (finite s m e).text = (if s then ['-'] else []) ++ decimalText m e := rfl

example : decimalText (3 * 2 ^ 51) (-52) = "1.5".toList := by decide +kernel

example : decimalText (2 ^ 52) 30 = "4.835703278458517e+24".toList := by decide +kernel

theorem readsAs_decimalText (s : Bool) {m : Nat} {e : Int} (hm : 0 < m) (hc : Canonical m e) :
    ReadsAs s (decimalText m e) ((shortest m e).digits * 10 ^ (shortest m e).exponent) := by
  have hd := shortest_digits_pos hm hc
  have hds := (digitText_spec hd).1
  rw [← digitText_value hd]
  unfold decimalText
  rw [if_neg hm.ne']
  dsimp only
  split_ifs
  · exact readsAs_positional s hds
  · exact readsAs_exponential s hds

theorem unsigned?_decimalText (s : Bool) {m : Nat} {e : Int} (hc : Canonical m e) {r : List Char}
    (hr : Stops r) :
    unsigned? s (decimalText m e ++ r) = some (.ok (.real (.finite s m e), r)) := by
  rcases Nat.eq_zero_or_pos m with rfl | hm
  · have he : e = -1074 := hc.normal.resolve_left (by norm_num)
    obtain ⟨n, x, hv, hu⟩ :=
      readsAs_fraction s whole_zero (List.cons_ne_nil '0' []) (isAsciiDigit_zeros 1) r hr
    have hzero : (n : ℚ) * 10 ^ x = (0 : Nat) * 10 ^ (0 : Int) := by
      rw [hv, show asciiValue (['0'] ++ ['0']) = 0 by rfl]
      simp
    rw [ofDecimal_congr s hzero] at hu
    rw [he]
    exact hu
  · obtain ⟨n, x, hv, hu⟩ := readsAs_decimalText s hm hc r hr
    rw [hu, ofDecimal_congr s hv, ofDecimal_sign (shortest_readsBack hm hc) s]

section

variable {ds : List Char} {point : Int}

theorem not_mem_positional (h : '\r' ∉ ds) : '\r' ∉ positional ds point := by
  unfold positional
  split_ifs
  · simp [h]
  · simp [h]
  · simp only [List.mem_append, List.mem_cons, not_or]
    exact ⟨fun hm => h (List.mem_of_mem_take hm), by decide, fun hm => h (List.mem_of_mem_drop hm)⟩

theorem not_mem_exponential (h : '\r' ∉ ds) : '\r' ∉ exponential ds point := by
  have hd (n : Nat) : '\r' ∉ Nat.toDigits 10 n := not_mem_toDigits (by decide) n
  have hsign (q : Prop) [Decidable q] : '\r' ≠ (if q then '-' else '+') := by
    split_ifs <;> decide
  cases ds with
  | nil => simp [exponential, hd, hsign]
  | cons d fs =>
    simp only [List.mem_cons, not_or] at h
    cases fs with
    | nil => simp [exponential, hd, hsign, h.1]
    | cons f fs => simpa [exponential, hd, hsign] using h

end

theorem not_mem_decimalText (m : Nat) (e : Int) : '\r' ∉ decimalText m e := by
  have hd (d : Decimal) : '\r' ∉ d.digitText := by
    unfold Decimal.digitText
    split
    · decide
    · intro hm
      have := List.mem_reverse.mp ((List.dropWhile_sublist _).subset (List.mem_reverse.mp hm))
      exact not_mem_toDigits (by decide) _ this
  unfold decimalText
  dsimp only
  split_ifs
  · decide
  · exact not_mem_positional (hd _)
  · exact not_mem_exponential (hd _)

theorem readsBack_finite (s : Bool) {m : Nat} {e : Int} (hc : Canonical m e) :
    ReadsBack (.real (finite s m e)) where
  reads r hr := by
    change number ((finite s m e).text ++ r) = _
    rw [text_finite, List.append_assoc]
    exact number_of_unsigned? (unsigned?_decimalText s hc hr)
  noReturn := by
    change '\r' ∉ (finite s m e).text
    rw [text_finite]
    cases s <;> simp [not_mem_decimalText]

/-- Numbers in their form read back, and so do the three that are none. -/
theorem readsBack_real {x : Binary64} (h : ∀ s m e, x = finite s m e → Canonical m e) :
    ReadsBack (.real x) := by
  cases x with
  | nan => exact ⟨fun r _ => rfl, by decide⟩
  | infinity s => cases s <;> exact ⟨fun r _ => rfl, by decide⟩
  | finite s m e => exact readsBack_finite s (h s m e rfl)

theorem readsBack_ofQuotient (s : Bool) (num : Nat) {den : Nat} (hd : 0 < den) :
    ReadsBack (.real (ofQuotient s num den)) := by
  obtain h | ⟨m, e, h, hc⟩ := ofQuotient_canonical s num hd
  · rw [h]
    exact readsBack_real fun _ _ _ he => by cases he
  · rw [h]
    exact readsBack_finite s hc

/-- A time that was measured reads back. -/
theorem readsBack_elapsed (start t : Binary64) : ReadsBack (Timing.seconds.elapsed start t) := by
  change ReadsBack (.real ((t.sub start).mul (.ofInt 1000)).roundTenth)
  cases (t.sub start).mul (.ofInt 1000) with
  | finite s m e => exact readsBack_ofQuotient s _ (by decide)
  | _ => exact readsBack_real fun _ _ _ he => by cases he

end Walkthrough.Json
