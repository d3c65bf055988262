import Mathlib.Data.List.TakeWhile
import Walkthrough.Text.Blank
/-!
Texts with characters cut off their ends: what is cut off, and what is left.
-/

namespace Walkthrough.Text

variable {p : Char → Bool}

/-- The longest run of characters of a kind goes up to one of another kind. -/
theorem takeWhile_append_of_head? {w t : List Char} (hw : ∀ c ∈ w, p c = true)
    (ht : ∀ c ∈ t.head?, p c = false) : (w ++ t).takeWhile p = w := by
  rw [List.takeWhile_append_of_pos hw]
  cases t with
  | nil => simp
  | cons c t => simp [ht c rfl]

theorem dropWhile_append_of_head? {w t : List Char} (hw : ∀ c ∈ w, p c = true)
    (ht : ∀ c ∈ t.head?, p c = false) : (w ++ t).dropWhile p = t := by
  rw [List.dropWhile_append_of_pos hw]
  cases t with
  | nil => rfl
  | cons c t => exact List.dropWhile_cons_of_neg (by simp [ht c rfl])

/-- Every text is a run of characters of a kind and what does not begin with one. -/
theorem exists_run (p : Char → Bool) (s : List Char) :
    ∃ w t, s = w ++ t ∧ (∀ c ∈ w, p c = true) ∧ ∀ c ∈ t.head?, p c = false := by
  refine ⟨s.takeWhile p, s.dropWhile p, List.takeWhile_append_dropWhile.symm, fun c hc => ?_,
    fun c hc => ?_⟩
  · exact List.mem_takeWhile_imp hc
  · have hnot := List.head?_dropWhile_not p s
    rw [hc] at hnot
    exact hnot

/-- What stands between characters that are cut off is left, if it has none of them at its ends. -/
theorem strip_append {w t v : List Char} (hw : ∀ c ∈ w, p c = true) (hv : ∀ c ∈ v, p c = true)
    (hh : ∀ c ∈ t.head?, p c = false) (hl : ∀ c ∈ t.getLast?, p c = false) :
    strip p (w ++ (t ++ v)) = t := by
  have hback : ∀ c ∈ v.reverse, p c = true := fun c hc => hv c (List.mem_reverse.mp hc)
  rw [strip, stripStart, List.dropWhile_append_of_pos hw]
  cases t with
  | nil =>
    rw [List.nil_append, List.dropWhile_eq_nil_iff.mpr hv]
    rfl
  | cons c t =>
    have hc : ¬p c = true := by simp [hh c rfl]
    have hlast : ∀ d ∈ (c :: t).reverse.head?, p d = false := by
      rw [List.head?_reverse]
      exact hl
    rw [List.cons_append, List.dropWhile_cons_of_neg hc, ← List.cons_append, stripEnd,
      List.reverse_append, dropWhile_append_of_head? hback hlast, List.reverse_reverse]

/-- A text is what is left of it between what is cut off. -/
theorem exists_strip (p : Char → Bool) (s : List Char) :
    ∃ w v, s = w ++ (strip p s ++ v) ∧ (∀ c ∈ w, p c = true) ∧ ∀ c ∈ v, p c = true := by
  let r := s.dropWhile p
  have hstart : s = s.takeWhile p ++ r := List.takeWhile_append_dropWhile.symm
  have hend : r = strip p s ++ (r.reverse.takeWhile p).reverse := by
    change r = (r.reverse.dropWhile p).reverse ++ (r.reverse.takeWhile p).reverse
    rw [← List.reverse_append, List.takeWhile_append_dropWhile, List.reverse_reverse]
  refine ⟨s.takeWhile p, (r.reverse.takeWhile p).reverse, ?_, ?_, ?_⟩
  · rw [← hend]
    exact hstart
  · intro c hc
    exact List.mem_takeWhile_imp hc
  · intro c hc
    exact List.mem_takeWhile_imp (List.mem_reverse.mp hc)

/-- Nothing is cut off a text that has none of the characters at its ends. -/
theorem strip_of_ends {s : List Char} (hh : ∀ c ∈ s.head?, p c = false)
    (hl : ∀ c ∈ s.getLast?, p c = false) : strip p s = s := by
  have hs := strip_append (w := []) (v := []) (by simp) (by simp) hh hl
  rwa [List.nil_append, List.append_nil] at hs

/-- A character that is not cut off is left. -/
theorem mem_strip {s : List Char} {c : Char} (hc : c ∈ s) (hp : p c = false) : c ∈ strip p s := by
  obtain ⟨w, v, hs, hw, hv⟩ := exists_strip p s
  have hcut {u : List Char} (hu : ∀ d ∈ u, p d = true) : c ∉ u := by
    intro hcu
    rw [hu c hcu] at hp
    cases hp
  rw [hs, List.mem_append, List.mem_append] at hc
  obtain hc | hc | hc := hc
  · exact absurd hc (hcut hw)
  · exact hc
  · exact absurd hc (hcut hv)

/-- Nothing comes to what is left that was not in the text. -/
theorem mem_of_mem_strip {s : List Char} {c : Char} (hc : c ∈ strip p s) : c ∈ s := by
  obtain ⟨w, v, hs, -, -⟩ := exists_strip p s
  rw [hs]
  exact List.mem_append_right w (List.mem_append_left v hc)

end Walkthrough.Text
