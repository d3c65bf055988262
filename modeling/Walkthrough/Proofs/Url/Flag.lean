import Walkthrough.Proofs.Except
import Walkthrough.Proofs.Url.Parts
import Walkthrough.Proofs.Url.Query
import Walkthrough.Url.Route
/-!
The tour flag. Setting it leaves a URL as it is but for its query, and the pairs of the query as
they are but for those of the flag's name; setting it again changes nothing.
-/

namespace Walkthrough

namespace Url

/-- A query with the tour flag behind the rest of its pairs. -/
def flagged (query : List Char) : List Char :=
  ofPairs ((pairs query).filter (·.1 != tourFlag) ++ [(tourFlag, ['1'])])

theorem pairs_flagged (query : List Char) :
    pairs (flagged query) = (pairs query).filter (·.1 != tourFlag) ++ [(tourFlag, ['1'])] :=
  pairs_ofPairs _

theorem flagged_flagged (query : List Char) : flagged (flagged query) = flagged query := by
  have hflag : [((tourFlag, ['1']) : Pair)].filter (·.1 != tourFlag) = [] := by decide
  rw [flagged, pairs_flagged, List.filter_append, List.filter_filter, hflag, List.append_nil]
  simp only [Bool.and_self]
  rfl

theorem Clean.flagged {u : Url} (h : u.Clean) : Clean { u with query := flagged u.query } where
  scheme := h.scheme
  authority := h.authority
  host := h.host
  authorityChars := h.authorityChars
  rooted := h.rooted
  pathChars := h.pathChars
  queryChars := fun c hc => by
    have hne {d : Char} (hd : isEncoded d = false) (he : d ≠ '=') (ha : d ≠ '&') : c ≠ d := by
      rintro rfl
      exact not_mem_ofPairs hd he ha _ hc
    have hdropped : isDropped c = false := by
      simp [isDropped, hne (d := '\t') (by decide) (by decide) (by decide),
        hne (d := '\r') (by decide) (by decide) (by decide),
        hne (d := '\n') (by decide) (by decide) (by decide)]
    exact ⟨hne (by decide) (by decide) (by decide), hdropped⟩
  fragmentChars := h.fragmentChars

end Url

open Url

variable {s : String} {u : Url}

/-- A URL on which the flag is set is read with the query in which it is set. -/
theorem parse_flagTour (h : Url.parse s = .ok u) (ha : u.authority ≠ []) :
    ∃ s', flagTour s = .ok s' ∧ Url.parse s' = .ok { u with query := flagged u.query } := by
  refine ⟨_, ?_, (clean_of_parse h ha).flagged.parse_text⟩
  rw [flagTour, h, ok_bind]
  rfl

/-- The flag is set once, behind the pairs of other names, and nothing else is changed. -/
theorem flagTour_query (h : Url.parse s = .ok u) (ha : u.authority ≠ []) :
    ∃ s' query, flagTour s = .ok s' ∧ Url.parse s' = .ok { u with query := query } ∧
      pairs query = (pairs u.query).filter (·.1 != tourFlag) ++ [(tourFlag, ['1'])] ∧
      flagTour s' = .ok s' := by
  obtain ⟨s', hs', hparse⟩ := parse_flagTour h ha
  refine ⟨s', flagged u.query, hs', hparse, pairs_flagged u.query, ?_⟩
  have htext : s' = ({ u with query := flagged u.query } : Url).text := by
    rw [flagTour, h, ok_bind] at hs'
    cases hs'
    rfl
  rw [flagTour, hparse, ok_bind]
  change Except.ok ({ u with query := flagged (flagged u.query) } : Url).text = _
  rw [flagged_flagged, htext]

theorem flagTour_query_repeated :
    let s := "HTTP://me@App.test:80/a b/?x=%zz&&tour=0&y+=%C3%28é&tour&x=%zz&k#f?#"
    let u : Url := ⟨"http".toList, "me@App.test:80".toList, "/a b/".toList,
      "x=%zz&&tour=0&y+=%C3%28é&tour&x=%zz&k".toList, "f?#".toList⟩
    Url.parse s = .ok u ∧ u.authority ≠ [] ∧
    ∃ s' query, flagTour s = .ok s' ∧ Url.parse s' = .ok { u with query := query } ∧
      pairs query = (pairs u.query).filter (·.1 != tourFlag) ++ [(tourFlag, ['1'])] ∧
      flagTour s' = .ok s' := by
  intro s u
  have h : Url.parse s = .ok u := ok_of_toOption (by decide +kernel)
  have ha : u.authority ≠ [] := by decide
  exact ⟨h, ha, flagTour_query h ha⟩

end Walkthrough
