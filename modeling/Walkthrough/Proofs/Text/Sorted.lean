import Mathlib.Data.List.Sort
import Mathlib.Data.String.Basic
import Walkthrough.Text.Sorted
/-!
Sorted lists of texts: a set of texts is one list, whatever order and number of times they are
given in.
-/

namespace Walkthrough.Text

theorem nodup_eraseDups {α : Type} [BEq α] [LawfulBEq α] : ∀ xs : List α, xs.eraseDups.Nodup
  | [] => List.nodup_nil
  | x :: xs => by
    rw [List.eraseDups_cons, List.nodup_cons]
    refine ⟨fun hx => ?_, nodup_eraseDups _⟩
    simp at hx
termination_by xs => xs.length
decreasing_by exact Nat.lt_succ_of_le (List.length_filter_le _ _)

theorem pairwise_sorted (ts : List String) : (sorted ts).Pairwise (· ≤ ·) := by
  have htrans (a b c : String) (hab : decide (a ≤ b) = true) (hbc : decide (b ≤ c) = true) :
      decide (a ≤ c) = true :=
    decide_eq_true (le_trans (of_decide_eq_true hab) (of_decide_eq_true hbc))
  have htotal (a b : String) : (decide (a ≤ b) || decide (b ≤ a)) = true := by
    simpa using le_total a b
  exact (List.pairwise_mergeSort htrans htotal ts).imp of_decide_eq_true

/-- The texts of a set are in order, and none is there twice. -/
theorem pairwise_sortedSet (ts : List String) : (sortedSet ts).Pairwise (· < ·) := by
  have hd : (sortedSet ts).Nodup := (perm_sorted _).nodup_iff.mpr (nodup_eraseDups ts)
  exact ((pairwise_sorted _).and hd).imp fun h => lt_of_le_of_ne h.1 h.2

/-- A set of texts is one list. -/
theorem sortedSet_congr {ts us : List String} (h : ∀ t, t ∈ ts ↔ t ∈ us) :
    sortedSet ts = sortedSet us := by
  refine List.Pairwise.eq_of_mem_iff (pairwise_sortedSet ts) (pairwise_sortedSet us) fun t => ?_
  rw [mem_sortedSet, mem_sortedSet, h t]

end Walkthrough.Text
