import Walkthrough.Proofs.Text.Strip
import Walkthrough.Text.Lines
/-!
Lines of joined texts. What two texts say one after the other is what they say joined by a line
feed, whatever ends the lines of either.
-/

namespace Walkthrough.Text

/-- A line break is white space. -/
theorem isBreak_of_not_isBlank {c : Char} (h : isBlank c = false) : isBreak c = false := by
  simp only [isBreak, isBlank, Bool.or_eq_false_iff, Bool.and_eq_false_iff, decide_eq_false_iff_not,
    beq_eq_false_iff_ne] at h ⊢
  omega

theorem lines_return_feed (r : List Char) : lines ('\r' :: '\n' :: r) = [] :: lines r := by
  rw [lines]

theorem lines_break {c : Char} {r : List Char} (hb : isBreak c = true)
    (hr : c = '\r' → r.head? ≠ some '\n') : lines (c :: r) = [] :: lines r := by
  rw [lines]
  · rw [if_pos hb]
  · intro r' hc he
    subst he
    exact absurd rfl (hr hc)

theorem lines_plain {c : Char} (hb : isBreak c = false) (r : List Char) :
    lines (c :: r) = consFirst c (lines r) := by
  rw [lines]
  · rw [if_neg (by simp [hb])]
  · intro r' hc
    subst hc
    cases hb

theorem lines_feed (r : List Char) : lines ('\n' :: r) = [] :: lines r :=
  lines_break rfl (fun h => by cases h)

/-- Lines have no line break in them. -/
theorem isBreak_of_mem_lines {s l : List Char} {c : Char} (hl : l ∈ lines s) (hc : c ∈ l) :
    isBreak c = false := by
  fun_induction lines s generalizing l with
  | case1 => cases hl
  | case2 r ih =>
    obtain rfl | hl := List.mem_cons.mp hl
    · cases hc
    · exact ih hl hc
  | case3 d r _ _ ih =>
    obtain rfl | hl := List.mem_cons.mp hl
    · cases hc
    · exact ih hl hc
  | case4 d r _ hb ih =>
    have hd : isBreak d = false := by simpa using hb
    cases hr : lines r with
    | nil =>
      rw [hr, consFirst, List.mem_singleton] at hl
      rw [hl, List.mem_singleton] at hc
      rwa [hc]
    | cons m ms =>
      rw [hr] at ih hl
      obtain rfl | hl := List.mem_cons.mp hl
      · obtain rfl | hc := List.mem_cons.mp hc
        · exact hd
        · exact ih List.mem_cons_self hc
      · exact ih (List.mem_cons_of_mem m hl) hc

theorem consFirst_append {c : Char} {ls : List (List Char)} (h : ls ≠ []) (ms : List (List Char)) :
    consFirst c (ls ++ ms) = consFirst c ls ++ ms := by
  cases ls with
  | nil => exact absurd rfl h
  | cons l ls => rfl

theorem lines_ne_nil {s : List Char} (hs : s ≠ []) : lines s ≠ [] := by
  fun_cases lines s with
  | case1 => exact absurd rfl hs
  | case2 r => simp
  | case3 c r hc hb => simp
  | case4 c r hc hb => cases lines r <;> simp [consFirst]

/-- A line feed between two texts ends the last line of the first, or opens an empty one behind
it. -/
theorem lines_append_feed (a b : List Char) :
    lines (a ++ '\n' :: b) = lines a ++ lines b ∨
      lines (a ++ '\n' :: b) = lines a ++ [] :: lines b := by
  fun_induction lines a with
  | case1 => exact .inr (lines_feed b)
  | case2 r ih =>
    simp only [List.cons_append, lines_return_feed]
    rcases ih with ih | ih
    · exact .inl (by rw [ih])
    · exact .inr (by rw [ih])
  | case3 c r hc hb ih =>
    by_cases hr : c = '\r' ∧ r = []
    · -- a return at the very end takes the line feed along
      obtain ⟨rfl, rfl⟩ := hr
      exact .inl (lines_return_feed b)
    · have hd : c = '\r' → (r ++ '\n' :: b).head? ≠ some '\n' := by
        intro h hd
        cases r with
        | nil => exact hr ⟨h, rfl⟩
        | cons d r => cases hd; exact hc r h rfl
      rw [List.cons_append, lines_break hb hd]
      rcases ih with ih | ih
      · exact .inl (by rw [ih]; rfl)
      · exact .inr (by rw [ih]; rfl)
  | case4 c r hc hb ih =>
    have hb' : isBreak c = false := by simpa using hb
    rw [List.cons_append, lines_plain hb']
    cases r with
    | nil => exact .inl (by rw [List.nil_append, lines_feed]; rfl)
    | cons d r =>
      have hn := lines_ne_nil (List.cons_ne_nil d r)
      rcases ih with ih | ih
      · exact .inl (by rw [ih, consFirst_append hn])
      · exact .inr (by rw [ih, consFirst_append hn])

/-- Line ends of one form make the same lines. -/
theorem lines_unifyLineEnds (s : List Char) : lines (unifyLineEnds s) = lines s := by
  fun_induction unifyLineEnds s with
  | case1 => rfl
  | case2 r ih => rw [lines_feed, lines_return_feed, ih]
  | case3 c r hc ih =>
    by_cases hr : c = '\r'
    · subst hr
      have hh : r.head? ≠ some '\n' := by
        intro h
        cases r with
        | nil => cases h
        | cons d r => cases h; exact hc r rfl rfl
      rw [if_pos rfl, lines_feed, ih, lines_break rfl fun _ => hh]
    · rw [if_neg hr]
      cases hb : isBreak c with
      | true => rw [lines_break hb fun h => absurd h hr, lines_break hb fun h => absurd h hr, ih]
      | false => rw [lines_plain hb, lines_plain hb, ih]

/-- A text without line breaks is a line. -/
theorem lines_of_unbroken {s : List Char} (hn : s ≠ []) (hb : ∀ c ∈ s, isBreak c = false) :
    lines s = [s] := by
  induction s with
  | nil => exact absurd rfl hn
  | cons c r ih =>
    rw [lines_plain (hb c List.mem_cons_self)]
    cases r with
    | nil => rfl
    | cons d r =>
      have hr := ih (by simp) fun e he => hb e (List.mem_cons_of_mem c he)
      rw [hr]
      rfl

/-- Nothing is cut off a text that begins and ends with something other than white space. -/
theorem trim_of_ends {s : List Char} (hh : ∀ c ∈ s.head?, isBlank c = false)
    (hl : ∀ c ∈ s.getLast?, isBlank c = false) : trim s = s := strip_of_ends hh hl

theorem pieces_of_not_mem {sep : Char} {s : List Char} (h : sep ∉ s) : pieces sep s = [s] := by
  induction s with
  | nil => rfl
  | cons c r ih =>
    rw [List.mem_cons, not_or] at h
    rw [pieces, if_neg (Ne.symm h.1), ih h.2]
    rfl

/-- A piece ends at its separator. -/
theorem pieces_append_cons {sep : Char} {s : List Char} (h : sep ∉ s) (r : List Char) :
    pieces sep (s ++ sep :: r) = s :: pieces sep r := by
  induction s with
  | nil => rw [List.nil_append, pieces, if_pos rfl]
  | cons c s ih =>
    rw [List.mem_cons, not_or] at h
    rw [List.cons_append, pieces, if_neg (Ne.symm h.1), ih h.2]
    rfl

theorem not_mem_of_mem_pieces {sep : Char} {s p : List Char} (h : p ∈ pieces sep s) : sep ∉ p := by
  induction s generalizing p with
  | nil =>
    rw [pieces, List.mem_singleton] at h
    rw [h]
    exact List.not_mem_nil
  | cons c r ih =>
    unfold pieces at h
    obtain ⟨q, qs, hq⟩ := List.exists_cons_of_ne_nil (pieces_ne_nil sep r)
    rw [hq] at h ih
    split at h
    · rcases List.mem_cons.mp h with rfl | h
      · exact List.not_mem_nil
      · exact ih h
    · next hc =>
      rcases List.mem_cons.mp h with rfl | h
      · rw [List.mem_cons, not_or]
        exact ⟨Ne.symm hc, ih List.mem_cons_self⟩
      · exact ih (List.mem_cons_of_mem _ h)

/-- The pieces of a text hold its characters and no others. -/
theorem mem_of_mem_pieces {sep c : Char} {s p : List Char} (hp : p ∈ pieces sep s) (hc : c ∈ p) :
    c ∈ s := by
  induction s generalizing p with
  | nil =>
    rw [pieces, List.mem_singleton] at hp
    rwa [hp] at hc
  | cons d r ih =>
    rw [pieces] at hp
    obtain ⟨q, qs, hq⟩ := List.exists_cons_of_ne_nil (pieces_ne_nil sep r)
    rw [hq] at hp ih
    split at hp
    · rcases List.mem_cons.mp hp with rfl | hp
      · cases hc
      · exact List.mem_cons_of_mem d (ih hp hc)
    · rcases List.mem_cons.mp hp with rfl | hp
      · rcases List.mem_cons.mp hc with rfl | hc
        · exact List.mem_cons_self
        · exact List.mem_cons_of_mem d (ih List.mem_cons_self hc)
      · exact List.mem_cons_of_mem d (ih (List.mem_cons_of_mem q hp) hc)

theorem intercalate_cons_eq (sep : Char) (p : List Char) (ps : List (List Char)) :
    [sep].intercalate (p :: ps) = p ++ ps.flatMap (sep :: ·) := by
  induction ps generalizing p with
  | nil => simp
  | cons q qs ih =>
    rw [List.intercalate_cons_cons, ih q]
    simp

/-- A character of a text is the separator or is in a piece. -/
theorem exists_piece (sep : Char) {c : Char} {s : List Char} (h : c ∈ s) :
    c = sep ∨ ∃ p ∈ pieces sep s, c ∈ p := by
  obtain ⟨p, ps, hp⟩ := List.exists_cons_of_ne_nil (pieces_ne_nil sep s)
  rw [← intercalate_pieces sep s, hp, intercalate_cons_eq, List.mem_append, List.mem_flatMap] at h
  rw [hp]
  obtain h | ⟨q, hq, h⟩ := h
  · exact .inr ⟨p, List.mem_cons_self, h⟩
  · obtain rfl | h := List.mem_cons.mp h
    · exact .inl rfl
    · exact .inr ⟨q, List.mem_cons_of_mem p hq, h⟩

/-- Joining texts adds no character but the separator. -/
theorem not_mem_intercalate {sep c : Char} (hc : c ≠ sep) {ps : List (List Char)}
    (h : ∀ p ∈ ps, c ∉ p) : c ∉ [sep].intercalate ps := by
  induction ps with
  | nil => exact List.not_mem_nil
  | cons p ps ih =>
    rw [List.forall_mem_cons] at h
    cases ps with
    | nil =>
      rw [List.intercalate_singleton]
      exact h.1
    | cons q qs =>
      rw [List.intercalate_cons_cons]
      simp [h.1, hc, ih h.2]

/-- Texts without a separator are the pieces of what they are joined to. -/
theorem pieces_intercalate {sep : Char} {ps : List (List Char)} (hne : ps ≠ [])
    (h : ∀ p ∈ ps, sep ∉ p) : pieces sep ([sep].intercalate ps) = ps := by
  induction ps with
  | nil => exact absurd rfl hne
  | cons p ps ih =>
    rw [List.forall_mem_cons] at h
    cases ps with
    | nil => rw [List.intercalate_singleton, pieces_of_not_mem h.1]
    | cons q qs =>
      rw [List.intercalate_cons_cons, List.append_assoc, List.singleton_append,
        pieces_append_cons h.1, ih (by simp) h.2]

end Walkthrough.Text
