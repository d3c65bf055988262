import Mathlib.Order.Bounds.Basic
import Walkthrough.Suggest
/-!
The distance of two texts, as the least number of edits of one character each that lead from one to
the other. A row of distances holds the row for a shorter text behind its first number, so that each
distance comes from three others; that no edit brings a text nearer by more than one gives the bound
from below, and the edits that the three stand for give the one from above.
-/

namespace Walkthrough.Suggest

/-- A character is put in, taken out or replaced. -/
inductive Edit : List Char → List Char → Prop where
  | insert (before after : List Char) (c : Char) : Edit (before ++ after) (before ++ c :: after)
  | delete (before after : List Char) (c : Char) : Edit (before ++ c :: after) (before ++ after)
  | substitute (before after : List Char) (c d : Char) :
    Edit (before ++ c :: after) (before ++ d :: after)

/-- So many edits, one after the other, lead from one text to another. -/
inductive Edits : Nat → List Char → List Char → Prop where
  | none (s : List Char) : Edits 0 s s
  | more {n : Nat} {s t u : List Char} : Edit s t → Edits n t u → Edits (n + 1) s u

theorem Edit.symm {s t : List Char} (h : Edit s t) : Edit t s := by
  cases h with
  | insert before after c => exact .delete before after c
  | delete before after c => exact .insert before after c
  | substitute before after c d => exact .substitute before after d c

theorem Edit.cons {s t : List Char} (h : Edit s t) (x : Char) : Edit (x :: s) (x :: t) := by
  cases h with
  | insert before after c => exact .insert (x :: before) after c
  | delete before after c => exact .delete (x :: before) after c
  | substitute before after c d => exact .substitute (x :: before) after c d

namespace Edits

variable {n : Nat} {s t u : List Char}

theorem cons (h : Edits n s t) (x : Char) : Edits n (x :: s) (x :: t) := by
  induction h with
  | none s => exact .none (x :: s)
  | more he _ ih => exact .more (he.cons x) ih

theorem concat (h : Edits n s t) (he : Edit t u) : Edits (n + 1) s u := by
  induction h with
  | none s => exact .more he (.none u)
  | more he' _ ih => exact .more he' (ih he)

theorem symm (h : Edits n s t) : Edits n t s := by
  induction h with
  | none s => exact .none s
  | more he _ ih => exact ih.concat he.symm

/-- Of two ways there is the shorter one. -/
theorem min {m : Nat} (hm : Edits m s t) (hn : Edits n s t) : Edits (min m n) s t := by
  rcases Nat.le_total m n with h | h
  · rwa [Nat.min_eq_left h]
  · rwa [Nat.min_eq_right h]

theorem of_nil (b : List Char) : Edits b.length [] b := by
  induction b with
  | nil => exact .none []
  | cons y b ih => exact .more (.insert [] [] y) (ih.cons y)

end Edits

/-- Behind its first number, a row of distances is that for one character less. -/
theorem distances_tail (a : List Char) (y : Char) (b : List Char) :
    (distances a (y :: b)).tail = distances a b := by
  induction a with
  | nil => rw [distances, List.length_cons, List.range_succ, List.reverse_append]; rfl
  | cons x a ih => rw [distances, distancesWith, List.tail_cons, ih, distances]

@[simp]
theorem editDistance_nil_left (b : List Char) : editDistance [] b = b.length := by
  rw [editDistance, distances, List.range_succ, List.reverse_append]
  rfl

@[simp]
theorem editDistance_nil_right (a : List Char) : editDistance a [] = a.length := by
  induction a with
  | nil => rfl
  | cons x a ih =>
    rw [editDistance] at ih ⊢
    rw [distances, distancesWith, ih]
    rfl

/-- The three ways in which the first characters of two texts can be done with. -/
theorem editDistance_cons_cons (x : Char) (a : List Char) (y : Char) (b : List Char) :
    editDistance (x :: a) (y :: b) =
      min (min (editDistance a (y :: b) + 1) (editDistance (x :: a) b + 1))
        (editDistance a b + if x = y then 0 else 1) := by
  rw [editDistance, distances, distancesWith, distances_tail]
  rfl

theorem editDistance_cons_left_le (x : Char) (a b : List Char) :
    editDistance (x :: a) b ≤ editDistance a b + 1 := by
  cases b with
  | nil => simp
  | cons y b =>
    rw [editDistance_cons_cons]
    omega

theorem editDistance_cons_right_le (a : List Char) (y : Char) (b : List Char) :
    editDistance a (y :: b) ≤ editDistance a b + 1 := by
  cases a with
  | nil => simp
  | cons x a =>
    rw [editDistance_cons_cons]
    omega

theorem editDistance_cons_cons_le (x : Char) (a : List Char) (y : Char) (b : List Char) :
    editDistance (x :: a) (y :: b) ≤ editDistance a b + 1 := by
  rw [editDistance_cons_cons]
  split_ifs <;> omega

theorem editDistance_self (a : List Char) : editDistance a a = 0 := by
  induction a with
  | nil => rfl
  | cons x a ih => simp [editDistance_cons_cons, ih]

theorem editDistance_le_max_length (a b : List Char) :
    editDistance a b ≤ max a.length b.length := by
  induction a generalizing b with
  | nil => simp
  | cons x a ih =>
    cases b with
    | nil => simp
    | cons y b =>
      have hstep := editDistance_cons_cons_le x a y b
      have hrest := ih b
      simp only [List.length_cons]
      omega

/-- There are as many edits from one text to the other as their distance says. -/
theorem edits_editDistance (a b : List Char) : Edits (editDistance a b) a b := by
  induction a generalizing b with
  | nil => simpa using Edits.of_nil b
  | cons x a iha =>
    induction b with
    | nil => simpa using (Edits.of_nil (x :: a)).symm
    | cons y b ihb =>
      have hdelete : Edits (editDistance a (y :: b) + 1) (x :: a) (y :: b) :=
        .more (.delete [] a x) (iha (y :: b))
      have hinsert : Edits (editDistance (x :: a) b + 1) (x :: a) (y :: b) :=
        .more (.insert [] (x :: a) y) (ihb.cons y)
      have hkeep : Edits (editDistance a b + if x = y then 0 else 1) (x :: a) (y :: b) := by
        split_ifs with hxy
        · subst hxy
          exact (iha b).cons x
        · exact .more (.substitute [] a x y) ((iha b).cons y)
      rw [editDistance_cons_cons]
      exact (hdelete.min hinsert).min hkeep

/-- Wherever two texts lead, the first is no further from it than the second, but for one edit. -/
def Near (s t : List Char) : Prop := ∀ u, editDistance s u ≤ editDistance t u + 1

theorem Near.cons {s t : List Char} (h : Near s t) (x : Char) : Near (x :: s) (x :: t) := by
  intro u
  induction u with
  | nil => simpa using h []
  | cons y u ih =>
    have hdelete := h (y :: u)
    have hkeep := h u
    simp only [editDistance_cons_cons]
    omega

theorem near_delete (c : Char) (s : List Char) : Near (c :: s) s :=
  editDistance_cons_left_le c s

theorem near_insert (s : List Char) (c : Char) : Near s (c :: s) := by
  intro u
  induction u with
  | nil =>
    simp only [editDistance_nil_right, List.length_cons]
    omega
  | cons y u ih =>
    have hright := editDistance_cons_right_le s y u
    rw [editDistance_cons_cons]
    omega

theorem near_substitute (c d : Char) (s : List Char) : Near (c :: s) (d :: s) := by
  intro u
  induction u with
  | nil => simp
  | cons y u ih =>
    have hdelete := editDistance_cons_left_le c s (y :: u)
    have hinsert := editDistance_cons_right_le (c :: s) y u
    have hboth := editDistance_cons_cons_le c s y u
    rw [editDistance_cons_cons d]
    omega

theorem Near.append {s t : List Char} (h : Near s t) (before : List Char) :
    Near (before ++ s) (before ++ t) := by
  induction before with
  | nil => exact h
  | cons x before ih => exact ih.cons x

/-- An edit brings a text nearer to another by no more than one. -/
theorem Edit.near {s t : List Char} (h : Edit s t) : Near s t := by
  cases h with
  | insert before after c => exact (near_insert after c).append before
  | delete before after c => exact (near_delete c after).append before
  | substitute before after c d => exact (near_substitute c d after).append before

theorem Edits.editDistance_le {n : Nat} {s t : List Char} (h : Edits n s t) :
    editDistance s t ≤ n := by
  induction h with
  | none s => exact (editDistance_self s).le
  | more he _ ih => exact (he.near _).trans (Nat.succ_le_succ ih)

theorem editDistance_isLeast (a b : List Char) :
    IsLeast {n | Edits n a b} (editDistance a b) :=
  ⟨edits_editDistance a b, fun _ h => h.editDistance_le⟩

theorem editDistance_comm (a b : List Char) : editDistance a b = editDistance b a := by
  apply le_antisymm
  · exact (edits_editDistance b a).symm.editDistance_le
  · exact (edits_editDistance a b).symm.editDistance_le

theorem editDistance_eq_zero_iff {a b : List Char} : editDistance a b = 0 ↔ a = b := by
  constructor
  · intro h
    have hedits := edits_editDistance a b
    rw [h] at hedits
    cases hedits
    rfl
  · rintro rfl
    exact editDistance_self a

/-- A text starts another, in lower case. -/
def Starts (a b : String) : Prop := Text.lower a.toList <+: Text.lower b.toList

instance (a b : String) : Decidable (Starts a b) :=
  inferInstanceAs (Decidable (Text.lower a.toList <+: Text.lower b.toList))

theorem distance_of_starts {a b : String} (h : Starts a b ∨ Starts b a) : distance a b = 0 := by
  simp only [distance, Bool.or_eq_true, List.isPrefixOf_iff_prefix]
  exact if_pos h

theorem distance_of_not_starts {a b : String} (h : ¬(Starts a b ∨ Starts b a)) :
    distance a b = editDistance (Text.lower a.toList) (Text.lower b.toList) := by
  simp only [distance, Bool.or_eq_true, List.isPrefixOf_iff_prefix]
  exact if_neg h

/-- In lower case, the distance of two texts is nought if one starts with the other, and only then;
otherwise it is the least number of edits that lead from one to the other. It is the same from
either side, and no more than the longer of the two is long. -/
theorem distance_isLeast (a b : String) :
    (distance a b = 0 ↔ Starts a b ∨ Starts b a) ∧
      (¬(Starts a b ∨ Starts b a) →
        IsLeast {n | Edits n (Text.lower a.toList) (Text.lower b.toList)} (distance a b)) ∧
      distance a b = distance b a ∧
      distance a b ≤ max (Text.lower a.toList).length (Text.lower b.toList).length := by
  by_cases h : Starts a b ∨ Starts b a
  · have hab : distance a b = 0 := distance_of_starts h
    have hba : distance b a = 0 := distance_of_starts h.symm
    exact ⟨⟨fun _ => h, fun _ => hab⟩, fun hn => absurd h hn, by rw [hab, hba], by simp [hab]⟩
  · have hab := distance_of_not_starts h
    have hba := distance_of_not_starts fun h' => h h'.symm
    rw [hab, hba]
    refine ⟨⟨fun hzero => ?_, fun hp => absurd hp h⟩, fun _ => editDistance_isLeast _ _,
      editDistance_comm _ _, editDistance_le_max_length _ _⟩
    have heq : Text.lower a.toList = Text.lower b.toList := editDistance_eq_zero_iff.mp hzero
    exact .inl ⟨[], by rw [List.append_nil, heq]⟩

theorem distance_isLeast_kitten :
    ¬(Starts "KITTEN" "sitting" ∨ Starts "sitting" "KITTEN") ∧
      IsLeast {n | Edits n (Text.lower "KITTEN".toList) (Text.lower "sitting".toList)} 3 := by
  have hstarts : ¬(Starts "KITTEN" "sitting" ∨ Starts "sitting" "KITTEN") := by decide +kernel
  have hdistance : distance "KITTEN" "sitting" = 3 := by decide +kernel
  refine ⟨hstarts, ?_⟩
  rw [← hdistance]
  exact (distance_isLeast "KITTEN" "sitting").2.1 hstarts

end Walkthrough.Suggest
