import Mathlib.Data.Finset.Card
import Mathlib.Data.Prod.Lex
import Walkthrough.Proofs.Text.Sorted
import Walkthrough.Suggest
/-!
Suggestions. No two candidates share a rank, so that the ranking is the only list that rises in rank
and has the candidates for its members. What is suggested is the front of it: it hangs on which
candidates there are, not on the order they come in nor on how often they come.
-/

namespace Walkthrough.Suggest

variable {value c d : String} {cs ds : List String}

/-- What a candidate is ranked by: its distance first, and then its characters. -/
def rank (value c : String) : Lex (Nat × String) := toLex (distance value c, c)

theorem rank_injective (value : String) : Function.Injective (rank value) := fun _ _ h =>
  congrArg Prod.snd (toLex.injective h)

/-- Candidates are ranked as pairs are ordered by their first part and then by their second. -/
theorem rankedLe_iff {x y : Nat × String} : rankedLe x y = true ↔ toLex x ≤ toLex y := by
  simp [rankedLe, Prod.Lex.toLex_le_toLex]

theorem pairwise_mergeSort_rankedLe (xs : List (Nat × String)) :
    (xs.mergeSort rankedLe).Pairwise fun x y => toLex x ≤ toLex y := by
  have htrans (x y z : Nat × String) (hxy : rankedLe x y = true) (hyz : rankedLe y z = true) :
      rankedLe x z = true :=
    rankedLe_iff.mpr (le_trans (rankedLe_iff.mp hxy) (rankedLe_iff.mp hyz))
  have htotal (x y : Nat × String) : (rankedLe x y || rankedLe y x) = true := by
    simpa [rankedLe_iff] using le_total (toLex x) (toLex y)
  exact (List.pairwise_mergeSort htrans htotal xs).imp rankedLe_iff.mp

theorem perm_ranked (value : String) (cs : List String) :
    (ranked value cs).Perm cs.eraseDups := by
  have hsort := List.mergeSort_perm (cs.eraseDups.map fun c => (distance value c, c)) rankedLe
  have hnames := hsort.map (·.2)
  rw [List.map_map] at hnames
  simpa [ranked, Function.comp_def] using hnames

@[simp]
theorem mem_ranked : c ∈ ranked value cs ↔ c ∈ cs := by
  rw [(perm_ranked value cs).mem_iff, List.mem_eraseDups]

theorem nodup_ranked (value : String) (cs : List String) : (ranked value cs).Nodup :=
  (perm_ranked value cs).nodup_iff.mpr (Text.nodup_eraseDups cs)

theorem length_ranked (value : String) (cs : List String) :
    (ranked value cs).length = cs.toFinset.card := by
  have hset : (ranked value cs).toFinset = cs.toFinset := by
    ext c
    simp
  rw [← List.toFinset_card_of_nodup (nodup_ranked value cs), hset]

/-- The pairs that are sorted are the ranks of the candidates. -/
theorem map_rank_ranked (value : String) (cs : List String) :
    (ranked value cs).map (rank value) =
      ((cs.eraseDups.map fun c => (distance value c, c)).mergeSort rankedLe).map toLex := by
  rw [ranked, List.map_map]
  refine List.map_congr_left fun p hp => ?_
  obtain ⟨c, -, rfl⟩ := List.mem_map.mp (List.mem_mergeSort.mp hp)
  rfl

theorem pairwise_ranked (value : String) (cs : List String) :
    ((ranked value cs).map (rank value)).Pairwise (· < ·) := by
  have hle : ((ranked value cs).map (rank value)).Pairwise (· ≤ ·) := by
    rw [map_rank_ranked, List.pairwise_map]
    exact pairwise_mergeSort_rankedLe _
  have hnodup : ((ranked value cs).map (rank value)).Nodup :=
    (nodup_ranked value cs).map (rank_injective value)
  exact (hle.and hnodup).imp fun h => lt_of_le_of_ne h.1 h.2

/-- A list that rises in rank is the ranking of its members. -/
theorem ranked_eq (hrises : (ds.map (rank value)).Pairwise (· < ·)) (h : ∀ c, c ∈ cs ↔ c ∈ ds) :
    ranked value cs = ds := by
  -- Ranks are compared, for in the order of the names alone neither list need rise.
  apply (rank_injective value).list_map
  refine (pairwise_ranked value cs).eq_of_mem_iff hrises fun r => ?_
  simp only [List.mem_map, mem_ranked, h]

theorem ranked_congr (h : ∀ c, c ∈ cs ↔ c ∈ ds) (value : String) :
    ranked value cs = ranked value ds :=
  ranked_eq (pairwise_ranked value ds) fun c => (h c).trans mem_ranked.symm

/-- The nearest of the same candidates are the same. -/
theorem nearest_congr {cs ds : List String} (h : ∀ c, c ∈ cs ↔ c ∈ ds) (value : String)
    (limit : Int) : nearest value cs limit = nearest value ds limit := by
  unfold nearest
  rw [ranked_congr h]

theorem nearest_eq_take (value : String) (cs : List String) (n : Nat) :
    nearest value cs n = (ranked value cs).take n := by
  simp [nearest, cutAt]

theorem mem_of_mem_nearest {n : Nat} (hc : c ∈ nearest value cs n) : c ∈ cs := by
  rw [nearest_eq_take] at hc
  exact mem_ranked.mp (List.mem_of_mem_take hc)

/-- A candidate that is left out ranks behind every one that is not. -/
theorem rank_lt_of_not_mem_nearest {n : Nat} (hc : c ∈ cs) (hout : c ∉ nearest value cs n)
    (hd : d ∈ nearest value cs n) : rank value d < rank value c := by
  rw [nearest_eq_take] at hout hd
  -- The ranking is what is taken and then the rest; what is taken ranks before all of the rest.
  have hsplit := List.take_append_drop n (ranked value cs)
  have hrest : c ∈ (ranked value cs).drop n := by
    have hmem : c ∈ ranked value cs := mem_ranked.mpr hc
    rw [← hsplit, List.mem_append] at hmem
    exact hmem.resolve_left hout
  have hrises := List.pairwise_map.mp (pairwise_ranked value cs)
  rw [← hsplit, List.pairwise_append] at hrises
  exact hrises.2.2 d hd c hrest

/-- The nearest candidates are the best ones and no others. None is there twice, and there are as
many as the limit allows, or all; they rise in rank, and every candidate that is left out ranks
behind all of them. Which order the candidates come in, and how often, makes no difference. -/
theorem nearest_best (value : String) (candidates : List String) (n : Nat) :
    let chosen := nearest value candidates n
    chosen.Nodup ∧
    chosen.length = min n candidates.toFinset.card ∧
    (chosen.map (rank value)).Pairwise (· < ·) ∧
    (∀ c ∈ chosen, c ∈ candidates) ∧
    (∀ c ∈ candidates, c ∉ chosen → ∀ d ∈ chosen, rank value d < rank value c) ∧
    ∀ others, (∀ c, c ∈ others ↔ c ∈ candidates) → nearest value others n = chosen := by
  intro chosen
  have hchosen : chosen = (ranked value candidates).take n := nearest_eq_take value candidates n
  refine ⟨?_, ?_, ?_, fun c => mem_of_mem_nearest,
    fun c hc hout d => rank_lt_of_not_mem_nearest hc hout, fun others h => nearest_congr h value n⟩
  · rw [hchosen]
    exact (nodup_ranked value candidates).sublist (List.take_sublist n _)
  · rw [hchosen, List.length_take, length_ranked]
  · rw [hchosen, List.map_take]
    exact (pairwise_ranked value candidates).take

/-- Three of the candidates are as near as can be, and two of them are taken by their characters. -/
theorem nearest_best_studio :
    let candidates := ["studios", "auth", "studio", "studios", "stud"]
    let others := ["auth", "stud", "studios", "studio", "stud"]
    nearest "studio" candidates 2 = ["stud", "studio"] ∧
      rank "studio" "studio" < rank "studio" "studios" ∧
      (∀ c, c ∈ others ↔ c ∈ candidates) ∧
      nearest "studio" others 2 = ["stud", "studio"] := by
  intro candidates others
  have hranked : ranked "studio" candidates = ["stud", "studio", "studios", "auth"] :=
    ranked_eq (by decide +kernel) (by grind)
  have hchosen : nearest "studio" candidates 2 = ["stud", "studio"] := by
    have h := nearest_eq_take "studio" candidates 2
    rwa [hranked] at h
  have hothers : ∀ c, c ∈ others ↔ c ∈ candidates := by grind
  obtain ⟨-, -, -, -, hout, hsame⟩ := nearest_best "studio" candidates 2
  have hstudios : "studios" ∉ nearest "studio" candidates 2 := by
    rw [hchosen]
    decide
  have hstudio : "studio" ∈ nearest "studio" candidates 2 := by
    rw [hchosen]
    decide
  exact ⟨hchosen, hout "studios" (by simp [candidates]) hstudios "studio" hstudio, hothers,
    (hsame others hothers).trans hchosen⟩

end Walkthrough.Suggest
