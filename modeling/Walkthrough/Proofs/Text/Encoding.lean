import Mathlib.Tactic.SplitIfs
import Walkthrough.Text.Utf8
import Walkthrough.Text.Lines
/-!
Texts as bytes: the bytes of a text spell it again, character by character.
-/

namespace Walkthrough.Text.Utf8

/-- A byte keeps a number below 256. -/
theorem toNat_toUInt8 {n : Nat} (h : n < 256) : n.toUInt8.toNat = n := by
  simpa using Nat.mod_eq_of_lt h

theorem more_cons {need low high acc span n : Nat} {bs : Bytes} (hn : n < 256)
    (hl : low ≤ n) (hh : n ≤ high) :
    more (need + 1) low high acc span (n.toUInt8 :: bs) =
      more need 0x80 0xBF (acc * 64 + (n - 0x80)) (span + 1) bs := by
  rw [more, toNat_toUInt8 hn, if_pos ⟨hl, hh⟩]

theorem next_two {n : Nat} (hl : 0x80 ≤ n) (hh : n < 0x800) (rest : Bytes) :
    next (0xC0 + n / 64).toUInt8 ((0x80 + n % 64).toUInt8 :: rest) = .char (Char.ofNat n) rest := by
  have hb := toNat_toUInt8 (show 0xC0 + n / 64 < 256 by omega)
  unfold next
  simp only [hb]
  rw [if_neg (by omega), if_neg (by omega), if_pos (by omega),
    more_cons (by omega) (by omega) (by omega), more]
  exact congrArg (fun m => Next.char (Char.ofNat m) rest) (by omega)

theorem next_three {n : Nat} (hl : 0x800 ≤ n) (hh : n < 0x10000)
    (hv : n < 0xD800 ∨ 0xDFFF < n) (rest : Bytes) :
    next (0xE0 + n / 4096).toUInt8
        ((0x80 + n / 64 % 64).toUInt8 :: (0x80 + n % 64).toUInt8 :: rest) =
      .char (Char.ofNat n) rest := by
  have hb := toNat_toUInt8 (show 0xE0 + n / 4096 < 256 by omega)
  have hm {low high acc : Nat} (h1 : low ≤ 0x80 + n / 64 % 64) (h2 : 0x80 + n / 64 % 64 ≤ high)
      (ha : acc = n / 4096) :
      more 2 low high acc 1 ((0x80 + n / 64 % 64).toUInt8 :: (0x80 + n % 64).toUInt8 :: rest) =
        .char (Char.ofNat n) rest := by
    rw [more_cons (by omega) h1 h2, more_cons (by omega) (by omega) (by omega), more]
    exact congrArg (fun m => Next.char (Char.ofNat m) rest) (by omega)
  unfold next
  simp only [hb]
  rw [if_neg (by omega), if_neg (by omega), if_neg (by omega)]
  split_ifs with he hd hf
  · exact hm (by omega) (by omega) (by omega)
  · exact hm (by omega) (by omega) (by omega)
  · exact hm (by omega) (by omega) (by omega)
  all_goals omega

theorem next_four {n : Nat} (hl : 0x10000 ≤ n) (hh : n < 0x110000) (rest : Bytes) :
    next (0xF0 + n / 262144).toUInt8
        ((0x80 + n / 4096 % 64).toUInt8 :: (0x80 + n / 64 % 64).toUInt8 ::
          (0x80 + n % 64).toUInt8 :: rest) =
      .char (Char.ofNat n) rest := by
  have hb := toNat_toUInt8 (show 0xF0 + n / 262144 < 256 by omega)
  have hm {low high acc : Nat} (h1 : low ≤ 0x80 + n / 4096 % 64)
      (h2 : 0x80 + n / 4096 % 64 ≤ high) (ha : acc = n / 262144) :
      more 3 low high acc 1 ((0x80 + n / 4096 % 64).toUInt8 :: (0x80 + n / 64 % 64).toUInt8 ::
          (0x80 + n % 64).toUInt8 :: rest) = .char (Char.ofNat n) rest := by
    rw [more_cons (by omega) h1 h2, more_cons (by omega) (by omega) (by omega),
      more_cons (by omega) (by omega) (by omega), more]
    exact congrArg (fun m => Next.char (Char.ofNat m) rest) (by omega)
  unfold next
  simp only [hb]
  rw [if_neg (by omega), if_neg (by omega), if_neg (by omega), if_neg (by omega),
    if_neg (by omega), if_neg (by omega)]
  split_ifs with he hd hf
  · exact hm (by omega) (by omega) (by omega)
  · exact hm (by omega) (by omega) (by omega)
  · exact hm (by omega) (by omega) (by omega)
  all_goals omega

/-- What stands first in the bytes of a text is its first character. -/
theorem next_encodeChar (c : Char) (rest : Bytes) :
    ∃ b bs, encodeChar c = b :: bs ∧ next b (bs ++ rest) = .char c rest := by
  have hv : c.toNat < 0xD800 ∨ 0xDFFF < c.toNat ∧ c.toNat < 0x110000 := c.valid
  have hc : Char.ofNat c.toNat = c := Char.ofNat_toNat c
  unfold encodeChar units
  generalize c.toNat = n at hv hc
  split_ifs with h1 h2 h3
  · refine ⟨_, _, rfl, ?_⟩
    have hb := toNat_toUInt8 (show n < 256 by omega)
    unfold next
    simp only [hb]
    rw [if_pos h1, hc, List.map_nil, List.nil_append]
  · exact ⟨_, _, rfl, (next_two (by omega) h2 rest).trans (by rw [hc])⟩
  · exact ⟨_, _, rfl, (next_three (by omega) h3 (by omega) rest).trans (by rw [hc])⟩
  · exact ⟨_, _, rfl, (next_four (by omega) (by omega) rest).trans (by rw [hc])⟩

theorem encode_append (s t : List Char) : encode (s ++ t) = encode s ++ encode t :=
  List.flatMap_append

theorem decodeFrom_encode (place : Nat) (s : List Char) : decodeFrom place (encode s) = .ok s := by
  induction s generalizing place with
  | nil => rw [encode, List.flatMap_nil, decodeFrom]
  | cons c r ih =>
    obtain ⟨b, bs, he, hn⟩ := next_encodeChar c (encode r)
    have hs : encode (c :: r) = b :: (bs ++ encode r) := by
      rw [encode, List.flatMap_cons, he, List.cons_append]
      rfl
    rw [hs, decodeFrom]
    split
    · next h => rw [hn] at h; cases h
    · next h =>
      rw [hn] at h
      cases h
      rw [ih]
      rfl

/-- Bytes of a text spell that text. -/
theorem decode_encode (s : List Char) : decode (encode s) = .ok s := decodeFrom_encode 0 s

/-- Nothing in the bytes of a text is replaced. -/
theorem decodeLossy_encode (s : List Char) : decodeLossy (encode s) = s := by
  induction s with
  | nil => rw [encode, List.flatMap_nil, decodeLossy]
  | cons c r ih =>
    obtain ⟨b, bs, he, hn⟩ := next_encodeChar c (encode r)
    have hs : encode (c :: r) = b :: (bs ++ encode r) := by
      rw [encode, List.flatMap_cons, he, List.cons_append]
      rfl
    rw [hs, decodeLossy]
    split
    · next h => rw [hn] at h; cases h
    · next h =>
      rw [hn] at h
      cases h
      rw [ih]

end Walkthrough.Text.Utf8

namespace Walkthrough.Text

/-- Without returns there is no line end to unify. -/
theorem unifyLineEnds_of_not_mem {s : List Char} (h : '\r' ∉ s) : unifyLineEnds s = s := by
  induction s with
  | nil => rfl
  | cons c r ih =>
    simp only [List.mem_cons, not_or] at h
    unfold unifyLineEnds
    split
    · next he => cases he
    · next he => cases he; exact absurd rfl h.1
    · next he => cases he; rw [if_neg (Ne.symm h.1), ih h.2]

end Walkthrough.Text
