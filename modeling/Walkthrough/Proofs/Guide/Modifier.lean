import Mathlib.Data.List.DropRight
import Walkthrough.Guide
import Walkthrough.Proofs.Except
import Walkthrough.Proofs.Guide.Clause
import Walkthrough.Proofs.Guide.Steps
import Walkthrough.Proofs.Text.Lines
/-!
Modifiers in writing. Behind a directive they are read in any order, and each adds what it says and
nothing else; one of a kind that was there before is refused.
-/

namespace Walkthrough

namespace Text

/-- A digit of any script is no white space. -/
theorem isBlank_of_isDigit {c : Char} (h : isDigit c = true) : isBlank c = false := by
  have hall : ∀ z ∈ digitZeros, ∀ d ∈ List.range 10, isBlank (Char.ofNat (z + d)) = false := by
    decide +kernel
  obtain ⟨d, hd⟩ := Option.isSome_iff_exists.mp h
  obtain ⟨z, hz, -⟩ := Option.map_eq_some_iff.mp hd
  have hrange := List.find?_some hz
  simp only [Bool.and_eq_true, decide_eq_true_eq] at hrange
  have hc := hall z (List.mem_of_find?_eq_some hz) (c.toNat - z) (List.mem_range.mpr (by omega))
  rwa [Nat.add_sub_cancel' hrange.1, Char.ofNat_toNat] at hc

/-- What is left of a text begins with its first character that is no white space. -/
theorem head?_trim_eq (s : List Char) : (trim s).head? = s.find? (!isBlank ·) := by
  induction s with
  | nil => rfl
  | cons c s ih =>
    cases hc : isBlank c with
    | true =>
      have hskip : trim (c :: s) = trim s := by
        simp only [trim, strip, stripStart, List.dropWhile_cons, hc, if_true]
      rw [hskip, ih, List.find?_cons, hc]
      rfl
    | false =>
      have hkeep : (stripEnd isBlank (c :: s)).head? = some c := by
        have hpre : stripEnd isBlank (c :: s) <+: c :: s := List.rdropWhile_prefix _ _
        have hne : stripEnd isBlank (c :: s) ≠ [] := by
          intro he
          have hall := List.rdropWhile_eq_nil_iff.mp he
          rw [hall c List.mem_cons_self] at hc
          cases hc
        obtain ⟨d, r, hr⟩ := List.exists_cons_of_ne_nil hne
        rw [hr] at hpre
        rw [hr, (List.cons_prefix_cons.mp hpre).1]
        rfl
      simp only [trim, strip, stripStart, List.dropWhile_cons, List.find?_cons, hc]
      exact hkeep

end Text

namespace Guide

theorem after?_append (word : String) (r : List Char) :
    after? word (word.toList ++ r) = some r := by
  unfold after?
  rw [if_pos (by simp), String.length, List.drop_left]

/-- A text does not begin with a word that begins with another letter. -/
theorem after?_of_head? {word : String} {s : List Char} {c d : Char}
    (hw : word.toList.head? = some c) (hs : s.head? = some d) (h : c ≠ d) :
    after? word s = none := by
  obtain ⟨w, hw⟩ := List.head?_eq_some_iff.mp hw
  obtain ⟨r, rfl⟩ := List.head?_eq_some_iff.mp hs
  unfold after?
  rw [hw, List.isPrefixOf_cons_cons, beq_eq_false_iff_ne.mpr h]
  rfl

theorem run?_append {p : Char → Bool} {s r : List Char} (hn : s ≠ []) (hs : ∀ c ∈ s, p c = true)
    (hr : ∀ c ∈ r.head?, p c = false) : run? p (s ++ r) = some (s, r) := by
  have hend : r.takeWhile p = [] ∧ r.dropWhile p = r := by
    cases r with
    | nil => exact ⟨rfl, rfl⟩
    | cons c r => simp [hr c rfl]
  unfold run?
  rw [List.takeWhile_append_of_pos hs, List.dropWhile_append_of_pos hs, hend.1, hend.2,
    List.append_nil]
  split
  · contradiction
  · rfl

/-- The characters of names are in one stretch of ASCII. -/
theorem toNat_of_isNameChar {c : Char} (h : isNameChar c = true) :
    45 ≤ c.toNat ∧ c.toNat ≤ 122 := by
  simp only [isNameChar, isPartChar, isAlnum, Bool.or_eq_true, Bool.and_eq_true, decide_eq_true_eq,
    beq_iff_eq, Char.le_def, UInt32.le_iff_toNat_le] at h
  obtain ((((h | h) | h) | rfl) | rfl) | rfl := h
  · change 65 ≤ c.toNat ∧ c.toNat ≤ 90 at h
    omega
  · change 97 ≤ c.toNat ∧ c.toNat ≤ 122 at h
    omega
  · change 48 ≤ c.toNat ∧ c.toNat ≤ 57 at h
    omega
  all_goals decide

theorem isBlank_of_isNameChar {c : Char} (h : isNameChar c = true) : Text.isBlank c = false := by
  have hc := toNat_of_isNameChar h
  simp only [Text.isBlank, Bool.or_eq_false_iff, Bool.and_eq_false_iff, decide_eq_false_iff_not,
    beq_eq_false_iff_ne]
  omega

namespace Modifier

/-- What a modifier is called. -/
def word : Modifier → List Char
  | preDelay _ => "predelay".toList
  | narration _ => "narration".toList
  | capture .. => "capture".toList
  | annotate _ => "annotate".toList

/-- Whether a capture is of the full page, if that is stated. -/
def flagWritten : Option Bool → List Char
  | none => []
  | some flag => ":fullPage=".toList ++ (if flag then "true" else "false").toList

/-- What a modifier states. -/
def statement : Modifier → List Char
  | preDelay ds => ds
  | narration t => '"' :: (t ++ ['"'])
  | capture moment n flag => moment.word.toList ++ ':' :: (n ++ flagWritten flag)
  | annotate i => '"' :: (i ++ ['"'])

/-- The text that a modifier quotes. -/
def quoted : Modifier → Option (List Char)
  | narration t => some t
  | annotate i => some i
  | _ => none

/-- A modifier in writing. -/
def written (m : Modifier) : List Char := m.word ++ ':' :: m.statement

/-- A text that can stand between quotes. -/
def Quotable (t : List Char) : Prop := t ≠ [] ∧ '"' ∉ t ∧ '\n' ∉ t

/-- The parts of a modifier are such as can be written. -/
def Writable : Modifier → Prop
  | preDelay ds => ds ≠ [] ∧ (∀ c ∈ ds, Text.isDigit c = true) ∧ ds.length ≤ Json.digitLimit
  | narration t => Quotable t
  | capture _ n _ => n ≠ [] ∧ ∀ c ∈ n, isNameChar c = true
  | annotate i => Quotable i

theorem quoted?_quote {t : List Char} (h : Quotable t) :
    quoted? ('"' :: (t ++ ['"'])) = some t := by
  obtain ⟨hn, -, hl⟩ := h
  obtain ⟨c, r, hr⟩ := List.exists_cons_of_ne_nil (List.reverse_ne_nil_iff.mpr hn)
  have hline : (c :: r).contains '\n' = false := by
    rw [← hr]
    simpa using hl
  have hback : (c :: r).reverse = t := by rw [← hr, List.reverse_reverse]
  simp only [quoted?, List.reverse_append, List.reverse_singleton, List.singleton_append, hr, hline,
    hback]
  rfl

theorem ofText?_eq (s : List Char) :
    ofText? s = (preDelay? s).or ((narration? s).or ((capture? s).or (annotate? s))) := by
  simp only [ofText?, forms, List.findSome?_cons, List.findSome?_nil]
  cases preDelay? s <;> cases narration? s <;> cases capture? s <;> cases annotate? s <;> rfl

theorem capture?_written (moment : Moment) {n : List Char} (hn : n ≠ [])
    (hc : ∀ c ∈ n, isNameChar c = true) (flag : Option Bool) :
    capture? (capture moment n flag).written = some (capture moment n flag) := by
  have hafter : after? "capture:" (capture moment n flag).written =
      some (moment.word.toList ++ ':' :: (n ++ flagWritten flag)) := after?_append "capture:" _
  have hmoment (r : List Char) :
      ((after? "before:" (moment.word.toList ++ ':' :: r)).map (Moment.before, ·)).or
        ((after? "after:" (moment.word.toList ++ ':' :: r)).map (Moment.after, ·)) =
          some (moment, r) := by
    cases moment with
    | before =>
      have hb : after? "before:" (Moment.before.word.toList ++ ':' :: r) = some r :=
        after?_append "before:" r
      rw [hb]
      rfl
    | after =>
      have hb : after? "before:" (Moment.after.word.toList ++ ':' :: r) = none :=
        after?_of_head? (c := 'b') (d := 'a') rfl rfl (by decide)
      have ha : after? "after:" (Moment.after.word.toList ++ ':' :: r) = some r :=
        after?_append "after:" r
      rw [hb, ha]
      rfl
  have hcolon (b : Bool) : (flagWritten (some b)).head? = some ':' := rfl
  have hrun : run? isNameChar (n ++ flagWritten flag) = some (n, flagWritten flag) := by
    refine run?_append hn hc fun c hhead => ?_
    cases flag with
    | none => cases hhead
    | some b =>
      obtain rfl : ':' = c := Option.some.inj ((hcolon b).symm.trans hhead)
      decide
  simp only [capture?, hafter, hmoment, hrun, Option.bind_eq_bind, Option.bind_some]
  cases flag with
  | none => rfl
  | some b =>
    have hflag : after? ":fullPage=" (flagWritten (some b)) =
        some (if b then "true" else "false").toList := after?_append ":fullPage=" _
    have hread : Directive.flag? (if b then "true" else "false").toList = some b := by
      cases b <;> rfl
    split
    · next hnil =>
      have h := hcolon b
      rw [hnil] at h
      cases h
    · rw [hflag, Option.bind_some, hread, Option.bind_some]

theorem ofText?_written {m : Modifier} (h : m.Writable) : ofText? m.written = some m := by
  have hother {word : String} {c d : Char} (hw : word.toList.head? = some c)
      (hd : m.word.head? = some d) (hne : c ≠ d) : after? word m.written = none := by
    refine after?_of_head? hw ?_ hne
    rw [written, List.head?_append, hd]
    rfl
  rw [ofText?_eq]
  cases m with
  | preDelay ds =>
    have hrun := run?_append (r := []) h.1 h.2.1 (by simp)
    rw [List.append_nil] at hrun
    have hdigits : digitsToEnd? ds = some ds := by rw [digitsToEnd?, hrun]
    have hafter : after? "predelay:" (preDelay ds).written = some ds := after?_append "predelay:" ds
    simp [preDelay?, hafter, hdigits]
  | narration t =>
    have hp : preDelay? (narration t).written = none := by
      rw [preDelay?, hother (c := 'p') (d := 'n') rfl rfl (by decide)]
      rfl
    have hafter : after? "narration:" (narration t).written = some ('"' :: (t ++ ['"'])) :=
      after?_append "narration:" _
    simp [hp, narration?, hafter, quoted?_quote h]
  | capture moment n flag =>
    have hp : preDelay? (capture moment n flag).written = none := by
      rw [preDelay?, hother (c := 'p') (d := 'c') rfl rfl (by decide)]
      rfl
    have hn : narration? (capture moment n flag).written = none := by
      rw [narration?, hother (c := 'n') (d := 'c') rfl rfl (by decide)]
      rfl
    simp [hp, hn, capture?_written moment h.1 h.2 flag]
  | annotate i =>
    have hp : preDelay? (annotate i).written = none := by
      rw [preDelay?, hother (c := 'p') (d := 'a') rfl rfl (by decide)]
      rfl
    have hn : narration? (annotate i).written = none := by
      rw [narration?, hother (c := 'n') (d := 'a') rfl rfl (by decide)]
      rfl
    have hc : capture? (annotate i).written = none := by
      rw [capture?, hother (c := 'c') (d := 'a') rfl rfl (by decide)]
      rfl
    have hafter : after? "annotate:" (annotate i).written = some ('"' :: (i ++ ['"'])) :=
      after?_append "annotate:" _
    simp [hp, hn, hc, annotate?, hafter, quoted?_quote h]

theorem isNameChar_of_mem_word {m : Modifier} {c : Char} (h : c ∈ m.word) :
    isNameChar c = true := by
  have hall : m.word.all isNameChar = true := by cases m <;> rfl
  exact List.all_eq_true.mp hall c h

theorem key_written (m : Modifier) : key m.written = m.word := by
  have hword : ∀ c ∈ m.word, (c != ':') = true := by
    intro c hc
    refine bne_iff_ne.mpr ?_
    rintro rfl
    exact absurd (isNameChar_of_mem_word hc) (by decide)
  rw [key, written, List.takeWhile_append_of_pos hword]
  simp

/-- A modifier that quotes nothing has neither white space nor quotes nor bars in it. -/
theorem plain_of_mem_written {m : Modifier} (h : m.Writable) (hq : m.quoted = none) {c : Char}
    (hc : c ∈ m.written) : Text.isBlank c = false ∧ c ≠ '"' ∧ c ≠ '|' := by
  have hname {c : Char} (hc : isNameChar c = true) :
      Text.isBlank c = false ∧ c ≠ '"' ∧ c ≠ '|' := by
    refine ⟨isBlank_of_isNameChar hc, ?_, ?_⟩
    · rintro rfl
      cases hc
    · rintro rfl
      cases hc
  rw [written, List.mem_append, List.mem_cons] at hc
  obtain hc | rfl | hc := hc
  · exact hname (isNameChar_of_mem_word hc)
  · decide
  · cases m with
    | preDelay ds =>
      refine ⟨Text.isBlank_of_isDigit (h.2.1 c hc), ?_, ?_⟩
      · rintro rfl
        exact absurd (h.2.1 _ hc) (by decide)
      · rintro rfl
        exact absurd (h.2.1 _ hc) (by decide)
    | capture moment n flag =>
      have hmoment : moment.word.toList.all isNameChar = true := by cases moment <;> rfl
      have hflag :
          (flagWritten flag).all (fun c => isNameChar c || c == ':' || c == '=') = true := by
        cases flag with
        | none => rfl
        | some b => cases b <;> rfl
      simp only [statement, List.mem_append, List.mem_cons] at hc
      obtain hc | rfl | hc | hc := hc
      · exact hname (List.all_eq_true.mp hmoment c hc)
      · decide
      · exact hname (h.2 c hc)
      · have hc := List.all_eq_true.mp hflag c hc
        simp only [Bool.or_eq_true, beq_iff_eq] at hc
        obtain (hc | rfl) | rfl := hc
        · exact hname hc
        · decide
        · decide
    | _ => cases hq

/-- A modifier that quotes a text states it between quotes, behind what opens a quote. -/
theorem written_of_quoted {m : Modifier} {t : List Char} (h : m.Writable) (hq : m.quoted = some t) :
    Quotable t ∧ ' ' :: m.written = ' ' :: (m.word ++ [':']) ++ '"' :: (t ++ ['"']) ∧
      opensQuote (' ' :: (m.word ++ [':'])) = true := by
  cases m <;> cases hq
  · exact ⟨h, rfl, by rfl⟩
  · exact ⟨h, rfl, by rfl⟩

/-- A modifier behind a blank is a piece by itself. -/
theorem isPiece_written {m : Modifier} (h : m.Writable) : IsPiece (' ' :: m.written) := by
  have hword {c : Char} (hc : isNameChar c = false) (hcolon : c ≠ ':') : c ∉ m.word ++ [':'] := by
    intro hmem
    rw [List.mem_append, List.mem_singleton] at hmem
    obtain hmem | rfl := hmem
    · rw [isNameChar_of_mem_word hmem] at hc
      cases hc
    · exact hcolon rfl
  have hfree {s : List Char} (hs : '|' ∉ s) : ¬divider <:+: ' ' :: s := by
    intro hd
    have hbar : '|' ∈ ' ' :: s := hd.subset (by simp [divider])
    simp at hbar
    exact hs hbar
  cases hq : m.quoted with
  | none =>
    refine isPiece_of_unquoted (hfree fun hc => (plain_of_mem_written h hq hc).2.2 rfl) ?_
    refine unquoted_of_not_mem (fun hc => ?_) []
    rw [List.mem_cons] at hc
    obtain hc | hc := hc
    · cases hc
    · exact (plain_of_mem_written h hq hc).2.1 rfl
  | some t =>
    obtain ⟨ht, hw, ho⟩ := written_of_quoted h hq
    rw [hw]
    refine isPiece_quoted (hfree (hword rfl (by decide))) ?_ ho ht.2.1
    rw [List.mem_cons, not_or]
    exact ⟨by decide, hword rfl (by decide)⟩

/-- Written modifiers neither begin nor end with white space. -/
theorem trim_written {m : Modifier} (h : m.Writable) :
    Text.trim (' ' :: m.written) = m.written := by
  have hskip : Text.trim (' ' :: m.written) = Text.trim m.written := rfl
  rw [hskip]
  refine Text.trim_of_ends (fun c hc => ?_) fun c hc => ?_
  · have hhead : m.written.head? = m.word.head? := by cases m <;> rfl
    rw [hhead] at hc
    exact isBlank_of_isNameChar (isNameChar_of_mem_word (List.mem_of_head? hc))
  · cases hq : m.quoted with
    | none => exact (plain_of_mem_written h hq (List.mem_of_getLast? hc)).1
    | some t =>
      obtain ⟨-, hw, -⟩ := written_of_quoted h hq
      have hlast : m.written.getLast? = some '"' := by
        rw [List.cons_append, List.cons.injEq] at hw
        rw [hw.2, ← List.cons_append, ← List.append_assoc, List.getLast?_concat]
      obtain rfl : '"' = c := Option.some.inj (hlast.symm.trans hc)
      rfl

end Modifier

end Guide

end Walkthrough
