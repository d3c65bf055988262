import Mathlib.Data.List.Basic
import Walkthrough.Proofs.Identifier
import Walkthrough.Proofs.Location
import Walkthrough.Proofs.Tour.Format
/-!
Ids of tours as names in a file system: an id begins with a letter or a digit and has no slash, so
that it is one part of a path and never stands for the directory it is in or the one above.
-/

namespace Walkthrough

open Walkthrough.Path (IsName)

theorem not_isNameChar_slash {c : Char} (hc : isNameChar c = true) : c ≠ '/' := by
  rintro rfl
  exact absurd hc (by decide)

/-- What an id is made of. -/
theorem exists_of_admits_tourId {s : String} (h : Pattern.tourId.admits s = true) :
    ∃ c r, s.toList = c :: r ∧ isAlnum c = true ∧ '/' ∉ s.toList := by
  have hform (r : List Char) (hr : isTourId r = true) :
      ∃ c r', r = c :: r' ∧ isAlnum c = true ∧ '/' ∉ r := by
    cases r with
    | nil => cases hr
    | cons c r =>
      simp only [isTourId, Bool.and_eq_true, List.all_eq_true] at hr
      refine ⟨c, r, rfl, hr.1, fun hm => ?_⟩
      rcases List.mem_cons.mp hm with rfl | hm
      · exact absurd hr.1 (by decide)
      · exact not_isNameChar_slash (hr.2 _ hm) rfl
  obtain hid | ⟨r, hs, hid⟩ := upToLineFeed_iff.mp h
  · obtain ⟨c, r, hs, hc, hn⟩ := hform _ hid
    exact ⟨c, r, hs, hc, hn⟩
  · obtain ⟨c, r, rfl, hc, hn⟩ := hform r hid
    refine ⟨c, r ++ ['\n'], hs, hc, ?_⟩
    rw [hs, List.mem_append, not_or]
    exact ⟨hn, by decide⟩

/-- An id is a name, and stays one with anything behind it that has no slash. -/
theorem isName_of_admits_tourId {s rest : String} (h : Pattern.tourId.admits s = true)
    (hrest : '/' ∉ rest.toList) : IsName (s ++ rest) := by
  obtain ⟨c, r, hs, hc, hn⟩ := exists_of_admits_tourId h
  have hhead : (s ++ rest).toList.head? = some c := by
    rw [String.toList_append, hs]
    rfl
  have hne {t : String} (ht : t.toList.head?.all (fun d => !isAlnum d) = true) : s ++ rest ≠ t := by
    rintro rfl
    rw [hhead, Option.all_some, hc] at ht
    cases ht
  apply IsName.of_not_mem
  · rw [String.toList_append, List.mem_append, not_or]
    exact ⟨hn, hrest⟩
  · exact hne (by decide)
  · exact hne (by decide)
  · exact hne (by decide)

/-- The id of a tour that was read is a name. -/
theorem Tour.isName_id {v : Json} {t : Tour} (h : Tour.ofJson v = .ok t) : IsName t.id := by
  have hname : IsName (t.id ++ "") := isName_of_admits_tourId (spec_of_ofJson h).1 (by decide)
  rwa [String.append_empty] at hname

end Walkthrough
