import Mathlib.Algebra.Group.Nat.Defs
import Mathlib.Tactic.ByContra
import Mathlib.Tactic.SplitIfs
import Walkthrough.Json.Reader
import Walkthrough.Json.Writer
import Walkthrough.Proofs.Text.Strip
/-!
Texts and numbers of JSON, read back from what is written for them.
-/

namespace Walkthrough.Json

theorem hex_of_lt {n : Nat} (h : n < 0x20) :
    Text.hex 4 n = ['0', '0', Nat.digitChar (n / 16), Nat.digitChar (n % 16)] := by
  revert n; decide

theorem hexDigit?_digitChar {n : Nat} (h : n < 16) : hexDigit? (Nat.digitChar n) = some n := by
  revert n; decide

/-- The four digits of a control character spell it. -/
theorem hexQuad?_hex {n : Nat} (h : n < 0x20) (e : Char) (r : List Char) :
    hexQuad? (Text.hex 4 n ++ e :: r) = some (n, e :: r) := by
  have h0 : hexDigit? '0' = some 0 := by decide
  have h1 := hexDigit?_digitChar (show n / 16 < 16 by omega)
  have h2 := hexDigit?_digitChar (show n % 16 < 16 by omega)
  simp only [hex_of_lt h, List.cons_append, List.nil_append, hexQuad?, h0, h1, h2,
    Option.bind_eq_bind, Option.bind_some]
  congr 2
  omega

variable {half : Option Char}

theorem escaped_u_hex {c : Char} (h : c.toNat < 0x20) (e : Char) (r : List Char) :
    escaped half 'u' (Text.hex 4 c.toNat ++ e :: r) = .ok (c, e :: r) := by
  have hc : ofUnit half c.toNat (e :: r) = .ok (c, e :: r) := by
    unfold ofUnit
    rw [if_pos (Or.inl (by omega)), Char.ofNat_toNat]
  change unicodeEscape _ _ = _
  rw [unicodeEscape, hexQuad?_hex h]
  simp only
  rw [if_neg (by omega), hc]

theorem chars_quote (o r : List Char) : chars half o ('"' :: r) = .ok ([], r) := by
  rw [chars]

theorem chars_backslash {o r t cs u : List Char} {e c : Char} (he : escaped half e r = .ok (c, t))
    (ht : chars half o t = .ok (cs, u)) : chars half o ('\\' :: e :: r) = .ok (c :: cs, u) := by
  rw [chars]
  split
  · next h => rw [he] at h; cases h
  · next h =>
    rw [he] at h
    cases h
    rw [ht]

theorem chars_plain {o r cs u : List Char} {c : Char} (hq : c ≠ '"') (hb : c ≠ '\\')
    (hc : ¬c.toNat < 0x20) (hr : chars half o r = .ok (cs, u)) :
    chars half o (c :: r) = .ok (c :: cs, u) := by
  rw [chars]
  · rw [if_neg hc, hr]
  · exact hq
  · intro h; exact absurd h hb
  · intro e r h; exact absurd h hb

/-- The form in which a character stands between quotes is read as that character. -/
theorem chars_escapeChar {o r cs u : List Char} (c : Char) (hr : chars half o r = .ok (cs, u)) :
    chars half o (escapeChar c ++ r) = .ok (c :: cs, u) := by
  unfold escapeChar
  split_ifs with h1 h2 h3 h4 h5 h6 h7 h8
  · subst h1; exact chars_backslash rfl hr
  · subst h2; exact chars_backslash rfl hr
  · subst h3; exact chars_backslash rfl hr
  · subst h4; exact chars_backslash rfl hr
  · subst h5; exact chars_backslash rfl hr
  · subst h6; exact chars_backslash rfl hr
  · subst h7; exact chars_backslash rfl hr
  · cases r with
    | nil => rw [chars] at hr; cases hr
    | cons e r => exact chars_backslash (escaped_u_hex h8 e r) hr
  · exact chars_plain h1 h2 h8 hr

theorem chars_flatMap_escapeChar (o s r : List Char) :
    chars half o (s.flatMap escapeChar ++ '"' :: r) = .ok (s, r) := by
  induction s with
  | nil => exact chars_quote o r
  | cons c s ih =>
    rw [List.flatMap_cons, List.append_assoc]
    exact chars_escapeChar c ih

/-- A control character between quotes is written as an escape. -/
theorem not_mem_escapeChar {c : Char} (hc : c.toNat < 0x20) (d : Char) : c ∉ escapeChar d := by
  have hn {e : Char} (he : ¬e.toNat < 0x20) : c ≠ e := by
    rintro rfl
    exact he hc
  unfold escapeChar
  split_ifs with h1 h2 h3 h4 h5 h6 h7 h8
  · simp [hn (e := '\\') (by decide), hn (e := '"') (by decide)]
  · simp [hn (e := '\\') (by decide)]
  · simp [hn (e := '\\') (by decide), hn (e := 'n') (by decide)]
  · simp [hn (e := '\\') (by decide), hn (e := 'r') (by decide)]
  · simp [hn (e := '\\') (by decide), hn (e := 't') (by decide)]
  · simp [hn (e := '\\') (by decide), hn (e := 'f') (by decide)]
  · simp [hn (e := '\\') (by decide), hn (e := 'b') (by decide)]
  · rw [hex_of_lt h8]
    have hd : ∀ m < 16, ¬(Nat.digitChar m).toNat < 0x20 := by decide
    simp [hn (e := '\\') (by decide), hn (e := 'u') (by decide), hn (e := '0') (by decide),
      hn (hd (d.toNat / 16) (by omega)), hn (hd (d.toNat % 16) (by omega))]
  · simpa using hn h8

theorem not_mem_writeText {c : Char} (hc : c.toNat < 0x20) (s : String) : c ∉ writeText s := by
  have hq : c ≠ '"' := by
    rintro rfl
    exact absurd hc (by decide)
  simp [writeText, hq, not_mem_escapeChar hc]

/-- What follows a number in a text: nothing that a number could go on with. -/
def Stops (r : List Char) : Prop :=
  ∀ c ∈ r.head?, isAsciiDigit c = false ∧ c ≠ '.' ∧ c ≠ 'e' ∧ c ≠ 'E'

/-- No digit comes first. -/
def NoDigit (r : List Char) : Prop := ∀ c ∈ r.head?, isAsciiDigit c = false

theorem Stops.noDigit {r : List Char} (h : Stops r) : NoDigit r := fun c hc => (h c hc).1

theorem isAsciiDigit_eq (c : Char) : isAsciiDigit c = c.isDigit := by
  simp [isAsciiDigit, Char.isDigit, Char.le_def]

theorem asciiValue_toDigits (n : Nat) : asciiValue (Nat.toDigits 10 n) = n :=
  Nat.ofDigitChars_ten_toDigits

theorem isAsciiDigit_of_mem_toDigits {n : Nat} {c : Char} (h : c ∈ Nat.toDigits 10 n) :
    isAsciiDigit c = true := by
  rw [isAsciiDigit_eq]
  exact Nat.isDigit_of_mem_toDigits (by decide) (by decide) h

/-- Only nought is written with a nought in front. -/
theorem toDigits_eq_cons {n : Nat} (h : 0 < n) :
    ∃ c ds, Nat.toDigits 10 n = c :: ds ∧ c ≠ '0' := by
  induction n using Nat.strongRecOn with
  | ind n ih =>
    by_cases hn : n < 10
    · exact ⟨_, _, Nat.toDigits_of_lt_base hn, by simpa using Nat.ne_of_gt h⟩
    · obtain ⟨c, ds, he, hc⟩ := ih (n / 10) (by omega) (by omega)
      rw [Nat.toDigits_of_base_le (by decide) (by omega), he]
      exact ⟨c, _, rfl, hc⟩

theorem takeWhile_digits {ds r : List Char} (hd : ∀ c ∈ ds, isAsciiDigit c = true)
    (hr : NoDigit r) :
    (ds ++ r).takeWhile isAsciiDigit = ds ∧ (ds ++ r).dropWhile isAsciiDigit = r :=
  ⟨Text.takeWhile_append_of_head? hd hr, Text.dropWhile_append_of_head? hd hr⟩

theorem wholePart?_toDigits (n : Nat) {r : List Char} (hr : Stops r) :
    wholePart? (Nat.toDigits 10 n ++ r) = some (Nat.toDigits 10 n, r) := by
  rcases Nat.eq_zero_or_pos n with rfl | hn
  · rw [Nat.toDigits_zero]; rfl
  · obtain ⟨c, ds, he, hc⟩ := toDigits_eq_cons hn
    have hm : ∀ d ∈ c :: ds, isAsciiDigit d = true := fun d hd =>
      isAsciiDigit_of_mem_toDigits (he ▸ hd)
    obtain ⟨ht, hd⟩ := takeWhile_digits (fun d h => hm d (List.mem_cons_of_mem c h)) hr.noDigit
    rw [he, List.cons_append, wholePart?]
    · rw [if_pos (hm c List.mem_cons_self), ht, hd]
    · exact hc

theorem fraction?_of_stops {r : List Char} (hr : Stops r) : fraction? r = none := by
  unfold fraction?
  split
  · exact absurd rfl (hr '.' rfl).2.1
  · rfl

theorem exponent?_of_stops {r : List Char} (hr : Stops r) : exponent? r = none := by
  cases r with
  | nil => rfl
  | cons e r =>
    obtain ⟨-, -, h1, h2⟩ := hr e rfl
    unfold exponent?
    simp only
    rw [if_neg (by simp [h1, h2])]

theorem unsigned?_toDigits (negative : Bool) (n : Nat) {r : List Char} (hr : Stops r)
    (hl : (Nat.toDigits 10 n).length ≤ digitLimit) :
    unsigned? negative (Nat.toDigits 10 n ++ r) =
      some (.ok (.int (Binary64.signed negative n), r)) := by
  rw [unsigned?, wholePart?_toDigits n hr]
  simp only [Option.bind_eq_bind, Option.bind_some, fraction?_of_stops hr, Option.elim_none,
    exponent?_of_stops hr]
  rw [if_neg (Nat.not_lt.mpr hl), asciiValue_toDigits]

theorem unsigned?_eq_none {c : Char} (h : isAsciiDigit c = false) (b : Bool) (s : List Char) :
    unsigned? b (c :: s) = none := by
  have hw : wholePart? (c :: s) = none := by
    unfold wholePart?
    split
    · next he => cases he; cases h
    · next he => cases he; rw [if_neg (by simp [h])]
    · rfl
  rw [unsigned?, hw]
  rfl

/-- A number is read behind its sign; the names of what is none start otherwise. -/
theorem number_of_unsigned? {b : Bool} {s : List Char} {x : Reading Number}
    (h : unsigned? b s = some x) : number ((if b then ['-'] else []) ++ s) = x := by
  cases s with
  | nil => cases h
  | cons c s =>
    have hc : isAsciiDigit c = true := by
      by_contra hc
      rw [unsigned?_eq_none (by simpa using hc)] at h
      cases h
    have hI : 'I' ≠ c := by rintro rfl; cases hc
    have hN : 'N' ≠ c := by rintro rfl; cases hc
    cases b with
    | true =>
      change number ('-' :: c :: s) = x
      rw [number, if_neg (by simp [List.isPrefixOf, hI]), h]
      rfl
    | false =>
      change number (c :: s) = x
      unfold number
      split
      · next he => cases he; cases hc
      · rw [if_neg (by simp [List.isPrefixOf, hN]), if_neg (by simp [List.isPrefixOf, hI]), h]
        rfl

/-- A number whose text is read as that number wherever nothing goes on with it. -/
structure ReadsBack (n : Number) : Prop where
  reads : ∀ r, Stops r → number (writeNumber n ++ r) = .ok (n, r)
  noReturn : '\r' ∉ writeNumber n

theorem writeNumber_int (n : Int) : writeNumber (.int n) = (toString n).toList := rfl

theorem writeNumber_natCast (n : Nat) : writeNumber (.int n) = Nat.toDigits 10 n := by
  rw [writeNumber_int, Int.toString_eq_repr, Int.repr_eq_if, if_pos (by omega), Int.toNat_natCast,
    Nat.toList_repr]

theorem writeNumber_neg {n : Nat} (h : 0 < n) :
    writeNumber (.int (-n)) = '-' :: Nat.toDigits 10 n := by
  rw [writeNumber_int, Int.toString_eq_repr, Int.repr_eq_if, if_neg (by omega), Int.neg_neg,
    Int.toNat_natCast, String.toList_append, Nat.toList_repr]
  rfl

theorem not_mem_toDigits {c : Char} (hc : isAsciiDigit c = false) (n : Nat) :
    c ∉ Nat.toDigits 10 n := fun h => by
  rw [isAsciiDigit_of_mem_toDigits h] at hc
  cases hc

theorem not_mem_writeNumber {c : Char} (hc : c.toNat < 0x20) (n : Int) :
    c ∉ writeNumber (.int n) := by
  have hm : c ≠ '-' := by
    rintro rfl
    exact absurd hc (by decide)
  have hd : isAsciiDigit c = false := by
    have hlow : ¬ '0' ≤ c := by
      intro h
      have : (0x30 : Nat) ≤ c.toNat := h
      omega
    simp [isAsciiDigit, hlow]
  rcases Int.lt_or_le n 0 with hn | hn
  · rw [show n = -(n.natAbs : Int) by omega, writeNumber_neg (by omega)]
    simp [hm, not_mem_toDigits hd]
  · rw [show n = (n.natAbs : Int) by omega, writeNumber_natCast]
    exact not_mem_toDigits hd _

/-- A whole number of no more digits than are read. -/
theorem readsBack_int {n : Int} (h : (Nat.toDigits 10 n.natAbs).length ≤ digitLimit) :
    ReadsBack (.int n) := by
  refine ⟨fun r hr => ?_, not_mem_writeNumber (by decide) n⟩
  rcases Int.lt_or_le n 0 with hn | hn
  · have he : n = -(n.natAbs : Int) := by omega
    have hw := writeNumber_neg (show 0 < n.natAbs by omega)
    rw [← he] at hw
    rw [hw, List.cons_append]
    refine (number_of_unsigned? (unsigned?_toDigits true n.natAbs hr h)).trans ?_
    rw [Binary64.signed, if_pos rfl, ← he]
  · have he : n = (n.natAbs : Int) := by omega
    have hw := writeNumber_natCast n.natAbs
    rw [← he] at hw
    rw [hw]
    refine (number_of_unsigned? (unsigned?_toDigits false n.natAbs hr h)).trans ?_
    rw [Binary64.signed, if_neg (by decide), ← he]

/-- No list is so long that its length is not read back. -/
theorem readsBack_natCast {n : Nat} (h : n < 2 ^ 64) : ReadsBack (.int n) := by
  refine readsBack_int ?_
  have hlen : (Nat.toDigits 10 n).length ≤ 20 :=
    (Nat.length_toDigits_le_iff (by decide) (by decide)).mpr (h.trans (by decide))
  exact hlen.trans (by decide)

end Walkthrough.Json
