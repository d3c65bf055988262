import Mathlib.Data.List.Nodup
import Mathlib.Data.List.Perm.Basic
import Walkthrough.Proofs.Text.Sorted
import Walkthrough.TourMap.Document
/-!
Texts in groups, and in groups of groups: taken out of their groups again they are the same texts,
none lost and none doubled, in the order of the keys that they were grouped by.
-/

namespace Walkthrough.TourMap

variable (key : String → String) (ts : List String)

theorem keys_groupBy : (groupBy key ts).map (·.1) = Text.sortedSet (ts.map key) := by
  rw [groupBy, List.map_map]
  exact List.map_id _

theorem pairwise_keys_groupBy : (groupBy key ts).Pairwise fun g h => g.1 < h.1 := by
  have h := Text.pairwise_sortedSet (ts.map key)
  rwa [← keys_groupBy, List.pairwise_map] at h

variable {key ts}

theorem mem_groupBy {g : String × List String} :
    g ∈ groupBy key ts ↔ g.1 ∈ ts.map key ∧ g.2 = ts.filter (key · == g.1) := by
  rw [groupBy, List.mem_map]
  constructor
  · rintro ⟨k, hk, rfl⟩
    exact ⟨Text.mem_sortedSet.mp hk, rfl⟩
  · rintro ⟨hk, hg⟩
    exact ⟨g.1, Text.mem_sortedSet.mpr hk, by rw [← hg]⟩

/-- The texts of a group are those with its key. -/
theorem mem_of_mem_groupBy {g : String × List String} (hg : g ∈ groupBy key ts) {t : String} :
    t ∈ g.2 ↔ t ∈ ts ∧ key t = g.1 := by
  rw [(mem_groupBy.mp hg).2, List.mem_filter, beq_iff_eq]

/-- There is no group without texts. -/
theorem exists_mem_of_mem_groupBy {g : String × List String} (hg : g ∈ groupBy key ts) :
    ∃ t, t ∈ g.2 := by
  obtain ⟨t, ht, hk⟩ := List.mem_map.mp (mem_groupBy.mp hg).1
  exact ⟨t, (mem_of_mem_groupBy hg).mpr ⟨ht, hk⟩⟩

variable (key ts) in
/-- The texts with one of some keys, key by key. -/
theorem perm_flatMap_filter {keys : List String} (h : keys.Nodup) :
    (keys.flatMap fun k => ts.filter (key · == k)).Perm (ts.filter (key · ∈ keys)) := by
  induction keys with
  | nil => simp
  | cons k keys ih =>
    rw [List.nodup_cons] at h
    have hk : (ts.filter (key · ∈ k :: keys)).filter (key · == k) = ts.filter (key · == k) := by
      rw [List.filter_filter]
      exact List.filter_congr fun t _ => by by_cases ht : key t = k <;> simp [ht]
    have hkeys : (ts.filter (key · ∈ k :: keys)).filter (!key · == k) =
        ts.filter (key · ∈ keys) := by
      rw [List.filter_filter]
      refine List.filter_congr fun t _ => ?_
      by_cases ht : key t = k
      · simp [ht, h.1]
      · simp [ht]
    have hsplit := List.filter_append_perm (key · == k) (ts.filter (key · ∈ k :: keys))
    rw [hk, hkeys] at hsplit
    rw [List.flatMap_cons]
    exact ((ih h.2).append_left _).trans hsplit

variable (key ts) in
theorem perm_flatMap_groupBy : ((groupBy key ts).flatMap (·.2)).Perm ts := by
  have hd : (Text.sortedSet (ts.map key)).Nodup :=
    (Text.pairwise_sortedSet _).imp ne_of_lt
  have hall : ts.filter (key · ∈ Text.sortedSet (ts.map key)) = ts := by
    rw [List.filter_eq_self]
    intro t ht
    exact decide_eq_true (Text.mem_sortedSet.mpr (List.mem_map_of_mem ht))
  have h := perm_flatMap_filter key ts hd
  rw [hall] at h
  rwa [groupBy, List.flatMap_map]

/-- Texts by one key after another. -/
def arranged : List (String → String) → List String → List String
  | [], ts => ts
  | key :: keys, ts => (groupBy key ts).flatMap fun g => arranged keys g.2

/-- The first key that tells two texts apart has them in order, or else they are so themselves. -/
def Precedes : List (String → String) → String → String → Prop
  | [], s, t => s ≤ t
  | key :: keys, s, t => key s < key t ∨ key s = key t ∧ Precedes keys s t

theorem perm_arranged (keys : List (String → String)) (ts : List String) :
    (arranged keys ts).Perm ts := by
  induction keys generalizing ts with
  | nil => exact List.Perm.refl ts
  | cons key keys ih =>
    exact (List.Perm.flatMap_left _ fun g _ => ih g.2).trans (perm_flatMap_groupBy key ts)

/-- Texts that are in order stay so where their keys do not tell them apart. -/
theorem pairwise_arranged (keys : List (String → String)) {ts : List String}
    (h : ts.Pairwise (· ≤ ·)) :
    (arranged keys ts).Pairwise (Precedes keys) := by
  induction keys generalizing ts with
  | nil => exact h
  | cons key keys ih =>
    have hmem {g : String × List String} (hg : g ∈ groupBy key ts) {t : String}
        (ht : t ∈ arranged keys g.2) : key t = g.1 :=
      ((mem_of_mem_groupBy hg).mp ((perm_arranged keys g.2).mem_iff.mp ht)).2
    rw [arranged, List.pairwise_flatMap]
    constructor
    · intro g hg
      have hgroup : g.2.Pairwise (· ≤ ·) := by
        rw [(mem_groupBy.mp hg).2]
        exact h.filter _
      refine (ih hgroup).imp_of_mem fun hs ht hprecedes => .inr ⟨?_, hprecedes⟩
      rw [hmem hg hs, hmem hg ht]
    · refine (pairwise_keys_groupBy key ts).imp_of_mem fun hg hg' hlt s hs t ht => .inl ?_
      rwa [hmem hg hs, hmem hg' ht]

end Walkthrough.TourMap
