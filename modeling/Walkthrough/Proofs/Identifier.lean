import Mathlib.Data.List.Basic
import Walkthrough.Identifier
import Walkthrough.Proofs.Text.Lines
/-!
The forms of names: what an anchor is made of, part by part, which characters names have, and what a
form that lets one line feed pass adds to them.
-/

namespace Walkthrough

theorem upToLineFeed_iff {form : List Char → Bool} {s : List Char} :
    upToLineFeed form s = true ↔ form s = true ∨ ∃ t, s = t ++ ['\n'] ∧ form t = true := by
  simp only [upToLineFeed, Bool.or_eq_true, Bool.and_eq_true, beq_iff_eq]
  apply or_congr_right
  constructor
  · rintro ⟨hlast, hform⟩
    exact ⟨s.dropLast, (List.dropLast_append_getLast? '\n' hlast).symm, hform⟩
  · rintro ⟨t, rfl, hform⟩
    rw [List.getLast?_concat, List.dropLast_concat]
    exact ⟨rfl, hform⟩

/-- A text without line feeds has the form, or nothing of it passes. -/
theorem upToLineFeed_of_not_mem {form : List Char → Bool} {s : List Char} (h : '\n' ∉ s) :
    upToLineFeed form s = form s := by
  rw [Bool.eq_iff_iff, upToLineFeed_iff]
  apply or_iff_left
  rintro ⟨t, rfl, -⟩
  exact h (List.mem_append_right t (List.mem_singleton_self '\n'))

theorem allOf_iff {p : Char → Bool} {s : List Char} :
    allOf p s = true ↔ s ≠ [] ∧ ∀ c ∈ s, p c = true := by
  simp [allOf]

/-- A text of characters of one kind has none of another kind. -/
theorem not_mem_of_allOf {p : Char → Bool} {s : List Char} {c : Char} (h : allOf p s = true)
    (hc : p c = false) : c ∉ s := by
  intro hm
  rw [(allOf_iff.mp h).2 c hm] at hc
  cases hc

/-- An anchor is the word and two parts or more, each with a dot in front. -/
theorem isAnchor_iff {s : List Char} : isAnchor s = true ↔
    ∃ ps : List (List Char), s = "tour".toList ++ ps.flatMap ('.' :: ·) ∧ 2 ≤ ps.length ∧
      ∀ p ∈ ps, allOf isPartChar p = true := by
  constructor
  · intro h
    unfold isAnchor isAnchorOf at h
    split at h
    · next root a b parts hp =>
      rw [Bool.and_eq_true, beq_iff_eq, List.all_eq_true] at h
      obtain ⟨rfl, hparts⟩ := h
      refine ⟨a :: b :: parts, ?_, by simp, hparts⟩
      rw [← Text.intercalate_cons_eq, ← hp, Text.intercalate_pieces]
    · cases h
  · rintro ⟨ps, rfl, hlen, hparts⟩
    have hdot : ∀ p ∈ "tour".toList :: ps, '.' ∉ p := by
      intro p hp
      obtain rfl | hp := List.mem_cons.mp hp
      · decide
      · exact not_mem_of_allOf (hparts p hp) rfl
    have hpieces := Text.pieces_intercalate (List.cons_ne_nil "tour".toList ps) hdot
    rw [Text.intercalate_cons_eq] at hpieces
    match ps, hlen with
    | a :: b :: parts, _ =>
      rw [isAnchor, isAnchorOf, hpieces]
      simpa using hparts

theorem isNameChar_of_isAlnum {c : Char} (h : isAlnum c = true) : isNameChar c = true := by
  rw [isNameChar, isPartChar, h]
  rfl

theorem isNameChar_of_isAnchor {s : List Char} (h : isAnchor s = true) {c : Char} (hc : c ∈ s) :
    isNameChar c = true := by
  obtain ⟨ps, rfl, -, hparts⟩ := isAnchor_iff.mp h
  obtain hc | hc := List.mem_append.mp hc
  · exact List.all_eq_true.mp (by rfl : "tour".toList.all isNameChar = true) c hc
  · obtain ⟨p, hp, hc⟩ := List.mem_flatMap.mp hc
    obtain rfl | hc := List.mem_cons.mp hc
    · rfl
    · rw [isNameChar, (allOf_iff.mp (hparts p hp)).2 c hc, Bool.true_or]

theorem isNameChar_of_isEvent {s : List Char} (h : isEvent s = true) {c : Char} (hc : c ∈ s) :
    isNameChar c = true := by
  rw [isEvent, Bool.and_eq_true, List.isPrefixOf_iff_prefix] at h
  obtain ⟨⟨t, rfl⟩, ht⟩ := h
  rw [String.length, List.drop_left] at ht
  obtain hc | hc := List.mem_append.mp hc
  · exact List.all_eq_true.mp (by rfl : eventLead.toList.all isNameChar = true) c hc
  · exact (allOf_iff.mp ht).2 c hc

theorem isNameChar_of_isVariable {s : List Char} (h : isVariable s = true) {c : Char} (hc : c ∈ s) :
    isNameChar c = true := by
  cases s with
  | nil => cases hc
  | cons d r =>
    rw [isVariable, Bool.and_eq_true, List.all_eq_true] at h
    have hword : isAlnum c = true ∨ c = '_' := by
      obtain rfl | hc := List.mem_cons.mp hc
      · rw [isVariableStart, Bool.or_eq_true, Bool.and_eq_true, beq_iff_eq] at h
        exact h.1.imp_left And.left
      · simpa using h.2 c hc
    obtain hword | rfl := hword
    · exact isNameChar_of_isAlnum hword
    · rfl

theorem isNameChar_of_isTourId {s : List Char} (h : isTourId s = true) {c : Char} (hc : c ∈ s) :
    isNameChar c = true := by
  cases s with
  | nil => cases hc
  | cons d r =>
    rw [isTourId, Bool.and_eq_true, List.all_eq_true] at h
    obtain rfl | hc := List.mem_cons.mp hc
    · exact isNameChar_of_isAlnum h.1
    · exact h.2 c hc

end Walkthrough
