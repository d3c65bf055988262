/-!
Sorted lists of texts. Texts are ordered by the code points of their characters.
-/

namespace Walkthrough.Text

def sorted (ts : List String) : List String := ts.mergeSort fun a b => decide (a ≤ b)

/-- Each text once, in order. -/
def sortedSet (ts : List String) : List String := sorted ts.eraseDups

theorem mem_sorted {t : String} {ts : List String} : t ∈ sorted ts ↔ t ∈ ts := by
  simp [sorted]

theorem mem_sortedSet {t : String} {ts : List String} : t ∈ sortedSet ts ↔ t ∈ ts := by
  simp [sortedSet, mem_sorted]

theorem perm_sorted (ts : List String) : (sorted ts).Perm ts := List.mergeSort_perm ..

end Walkthrough.Text
