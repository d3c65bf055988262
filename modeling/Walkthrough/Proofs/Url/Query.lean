import Mathlib.Tactic.IntervalCases
import Walkthrough.Proofs.Text.Encoding
import Walkthrough.Proofs.Text.Lines
import Walkthrough.Url.Query
/-!
Queries read back: the pairs that a query is written for are the pairs that are read in it.
-/

namespace Walkthrough.Url

open Text.Utf8 (Bytes)

theorem hexValue?_hexCapital {n : Nat} (h : n < 16) : hexValue? (hexCapital n) = some n := by
  interval_cases n <;> rfl

/-- Two digits spell their byte. -/
theorem bytes_escapeByte (b : UInt8) (r : List Char) :
    bytes (escapeByte b ++ r) = b :: bytes r := by
  have hb : b.toNat < 256 := b.toNat_lt
  have hh := hexValue?_hexCapital (show b.toNat / 16 < 16 by omega)
  have hl := hexValue?_hexCapital (show b.toNat % 16 < 16 by omega)
  have hbyte : (16 * (b.toNat / 16) + b.toNat % 16).toUInt8 = b := by
    rw [Nat.div_add_mod]
    exact UInt8.ofNat_toNat
  simp only [escapeByte, List.cons_append, List.nil_append, bytes, hh, hl, hbyte]

theorem bytes_escapeBytes (bs : Bytes) (r : List Char) :
    bytes (bs.flatMap escapeByte ++ r) = bs ++ bytes r := by
  induction bs with
  | nil => rfl
  | cons b bs ih =>
    rw [List.flatMap_cons, List.append_assoc, bytes_escapeByte, ih, List.cons_append]

theorem bytes_plain {c : Char} (h : c ≠ '%') (r : List Char) :
    bytes (c :: r) = Text.Utf8.encodeChar (if c = '+' then ' ' else c) ++ bytes r := by
  rw [bytes]
  rintro a b s rfl
  exact absurd rfl h

/-- A character that stands for itself in a query. -/
theorem ne_of_isUnreserved {c : Char} (h : isUnreserved c = true) {d : Char}
    (hd : isUnreserved d = false) : c ≠ d := by
  rintro rfl
  rw [h] at hd
  cases hd

theorem bytes_encodeChar (c : Char) (r : List Char) :
    bytes (encodeChar c ++ r) = Text.Utf8.encodeChar c ++ bytes r := by
  unfold encodeChar
  split_ifs with hplain hblank
  · rw [List.singleton_append, bytes_plain (ne_of_isUnreserved hplain (by decide)),
      if_neg (ne_of_isUnreserved hplain (by decide))]
  · subst hblank
    rw [List.singleton_append, bytes_plain (by decide), if_pos rfl]
  · exact bytes_escapeBytes _ r

theorem bytes_encode (s : List Char) : bytes (encode s) = Text.Utf8.encode s := by
  induction s with
  | nil => rfl
  | cons c s ih =>
    rw [encode, List.flatMap_cons, bytes_encodeChar]
    exact congrArg _ ih

/-- What is encoded for a query is decoded to what it was, whatever characters it has. -/
theorem decode_encode (s : List Char) : decode (encode s) = s := by
  rw [decode, bytes_encode, Text.Utf8.decodeLossy_encode]

/-- The characters of encoded texts. -/
def isEncoded (c : Char) : Bool := isUnreserved c || c == '+' || c == '%'

theorem isEncoded_hexCapital {n : Nat} (h : n < 16) : isEncoded (hexCapital n) = true := by
  interval_cases n <;> rfl

theorem isEncoded_of_mem_encode {s : List Char} {c : Char} (h : c ∈ encode s) :
    isEncoded c = true := by
  obtain ⟨d, -, h⟩ := List.mem_flatMap.mp h
  unfold encodeChar at h
  split_ifs at h with hplain hblank
  · rw [List.mem_singleton] at h
    rw [isEncoded, h, hplain]
    rfl
  · rw [List.mem_singleton] at h
    rw [h]
    rfl
  · obtain ⟨b, -, h⟩ := List.mem_flatMap.mp h
    have hb : b.toNat < 256 := b.toNat_lt
    simp only [escapeByte, List.mem_cons, List.not_mem_nil, or_false] at h
    rcases h with rfl | rfl | rfl
    · rfl
    · exact isEncoded_hexCapital (by omega)
    · exact isEncoded_hexCapital (by omega)

theorem not_mem_encode {d : Char} (hd : isEncoded d = false) (s : List Char) : d ∉ encode s := by
  intro h
  rw [isEncoded_of_mem_encode h] at hd
  cases hd

theorem pairOf_pairText (p : Pair) : pairOf (pairText p) = p := by
  have hname : ∀ c ∈ encode p.1, (c != '=') = true := by
    intro c hc
    rw [bne_iff_ne]
    rintro rfl
    exact not_mem_encode (by decide) p.1 hc
  rw [pairOf, pairText, List.takeWhile_append_of_pos hname, List.dropWhile_append_of_pos hname]
  simp [decode_encode]

theorem not_mem_pairText {d : Char} (hd : isEncoded d = false) (he : d ≠ '=') (p : Pair) :
    d ∉ pairText p := by
  simp [pairText, not_mem_encode hd, he]

/-- Pairs that are written in a query are read in it, in their order. -/
theorem pairs_ofPairs (ps : List Pair) : pairs (ofPairs ps) = ps := by
  rcases eq_or_ne ps [] with rfl | hne
  · rfl
  have hpieces : Text.pieces '&' (ofPairs ps) = ps.map pairText := by
    refine Text.pieces_intercalate (by simpa using hne) ?_
    exact List.forall_mem_map.mpr fun p _ => not_mem_pairText (by decide) (by decide) p
  have hkept : (ps.map pairText).filter (!·.isEmpty) = ps.map pairText := by
    rw [List.filter_eq_self]
    refine List.forall_mem_map.mpr fun p _ => ?_
    simp [pairText]
  rw [pairs, hpieces, hkept, List.map_map]
  exact (List.map_congr_left fun p _ => pairOf_pairText p).trans (List.map_id ps)

theorem not_mem_ofPairs {d : Char} (hd : isEncoded d = false) (he : d ≠ '=') (ha : d ≠ '&')
    (ps : List Pair) : d ∉ ofPairs ps :=
  Text.not_mem_intercalate ha (List.forall_mem_map.mpr fun p _ => not_mem_pairText hd he p)

end Walkthrough.Url
