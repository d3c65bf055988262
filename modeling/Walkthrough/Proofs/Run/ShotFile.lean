import Walkthrough.Proofs.Json.Real
import Walkthrough.Proofs.Location
import Walkthrough.Run
/-!
The files of screenshots. The name of such a file has the number of the step in front, so that no
two steps share a file; within a step two names share one if the same characters are left of them.
-/

namespace Walkthrough

open Json (asciiValue isAsciiDigit)

theorem not_mem_threePlaces {c : Char} (hc : isAsciiDigit c = false) (hm : c ≠ '-') (n : Int) :
    c ∉ (threePlaces n).toList := by
  have hd : c ∉ Nat.toDigits 10 n.natAbs := Json.not_mem_toDigits hc _
  have hz : c ≠ '0' := by
    rintro rfl
    cases hc
  unfold threePlaces
  split_ifs <;> simp [hd, hm, hz]

/-- A number can be told from its places, however many they are. -/
theorem threePlaces_inj {m n : Nat} (h : threePlaces m = threePlaces n) : m = n := by
  have hdigits (n : Nat) :
      ∃ k, (threePlaces n).toList = List.replicate k '0' ++ Nat.toDigits 10 n := by
    have hn : ¬(n : Int) < 0 := by omega
    refine ⟨3 - (toString n).length, ?_⟩
    simp [threePlaces, hn]
  obtain ⟨j, hj⟩ := hdigits m
  obtain ⟨k, hk⟩ := hdigits n
  have hv : asciiValue (List.replicate j '0' ++ Nat.toDigits 10 m) =
      asciiValue (List.replicate k '0' ++ Nat.toDigits 10 n) := by
    rw [← hj, ← hk, h]
  rwa [Json.asciiValue_zeros_append, Json.asciiValue_zeros_append, Json.asciiValue_toDigits,
    Json.asciiValue_toDigits] at hv

namespace Run

theorem not_mem_fileName (s : List Char) : '/' ∉ fileName s := by
  have hn {c : Char} (hc : isNameChar c = true) : '/' ≠ c := by
    rintro rfl
    cases hc
  fun_induction fileName s with
  | case1 => simp
  | case2 c =>
    split_ifs with hc
    · simpa using hn hc
    · decide
  | case3 c d r hc ih => simpa [hn hc] using ih
  | case4 c d r hc hd ih => simpa using ih
  | case5 c d r hc hd ih => exact ih

theorem fileName_ne_nil {s : List Char} (h : s ≠ []) : fileName s ≠ [] := by
  fun_induction fileName s with
  | case1 => exact h
  | case5 c d r hc hd ih => exact ih (List.cons_ne_nil d r)
  | _ => exact List.cons_ne_nil _ _

/-- What is left of a name in the name of a file; a name of which nothing is left gives way to the
step's number. -/
def safeName (index : Nat) (name : String) : String :=
  match String.ofList (fileName name.toList) with
  | "" => s!"step-{index}"
  | t => t

/-- The name of a screenshot's file. -/
def shotName (index : Nat) (name : String) : String :=
  threePlaces index ++ "_" ++ safeName index name ++ ".png"

theorem shotPath_eq (directory : Path) (index : Nat) (name : String) :
    shotPath directory index name = directory / "screens" / shotName index name := rfl

theorem safeName_of_ne {index : Nat} {name : String} (h : name ≠ "") :
    safeName index name = String.ofList (fileName name.toList) := by
  have hne : String.ofList (fileName name.toList) ≠ "" := by
    intro he
    refine fileName_ne_nil (s := name.toList) ?_ ?_
    · simpa using h
    · simpa using congrArg String.toList he
  unfold safeName
  split
  · next he => exact absurd he hne
  · rfl

theorem getLast?_shotName (index : Nat) (name : String) :
    (shotName index name).toList.getLast? = some 'g' := by
  rw [shotName, String.toList_append, List.getLast?_append]
  rfl

theorem ofString_shotName (index : Nat) (name : String) :
    Path.ofString (shotName index name) = ⟨"", [shotName index name]⟩ := by
  have hlast := getLast?_shotName index name
  refine Path.ofString_name ?_ (fun h => ?_) fun h => ?_
  · have hsafe : '/' ∉ (safeName index name).toList := by
      unfold safeName
      split
      · have hs : '/' ∉ (toString "step-").toList := by decide
        have hd : '/' ∉ Nat.toDigits 10 index := Json.not_mem_toDigits (by decide) _
        simpa using ⟨hs, hd⟩
      · rw [String.toList_ofList]
        exact not_mem_fileName _
    simp [shotName, not_mem_threePlaces (c := '/') (by decide) (by decide), hsafe]
  · rw [h] at hlast
    cases hlast
  · rw [h] at hlast
    cases hlast

/-- A screenshot's file has an image's name. -/
theorem shotPath_name (directory : Path) (index : Nat) (name : String) :
    (shotPath directory index name).parts.getLast? = some (shotName index name) :=
  Path.getLast?_join_name _ _ (ofString_shotName index name)

/-- Two screenshots share a file only if they are of one step and the same is left of their
names. -/
theorem shotPath_text_inj {directory : Path} {i j : Nat} {m n : String}
    (h : (shotPath directory i m).text = (shotPath directory j n).text) :
    i = j ∧ safeName i m = safeName j n := by
  have hname : shotName i m = shotName j n :=
    Path.name_inj_of_text (ofString_shotName i m) (ofString_shotName j n) h
  have hlow (n : Nat) : '_' ∉ (threePlaces n).toList :=
    not_mem_threePlaces (by decide) (by decide) n
  have hsplit (i : Nat) (m : String) : Text.pieces '_' (shotName i m).toList =
      (threePlaces i).toList :: Text.pieces '_' (safeName i m ++ ".png").toList := by
    rw [← Text.pieces_append_cons (hlow i)]
    simp [shotName]
  have hplaces : threePlaces i = threePlaces j := by
    have h := hsplit j n
    rw [← hname, hsplit i m, List.cons.injEq] at h
    exact String.toList_inj.mp h.1
  refine ⟨threePlaces_inj hplaces, ?_⟩
  unfold shotName at hname
  rw [hplaces] at hname
  exact (String.append_right_inj _).mp ((String.append_left_inj _).mp hname)

theorem isNameChar_of_mem_fileName {s : List Char} : ∀ c ∈ fileName s, isNameChar c = true := by
  fun_induction fileName s with
  | case1 => simp
  | case2 c =>
    split_ifs with hc
    · simpa using hc
    · exact List.forall_mem_singleton.mpr rfl
  | case3 c d r hc ih => exact List.forall_mem_cons.mpr ⟨hc, ih⟩
  | case4 c d r hc hd ih => exact List.forall_mem_cons.mpr ⟨by decide, ih⟩
  | case5 c d r hc hd ih => exact ih

/-- Every character that the name of a file keeps is in it. -/
theorem countP_le_length_fileName (s : List Char) : s.countP isNameChar ≤ (fileName s).length := by
  fun_induction fileName s with
  | case1 => simp
  | case2 c => simpa using List.countP_le_length (p := isNameChar) (l := [c])
  | case3 c d r hc ih => simpa [List.countP_cons_of_pos, hc] using ih
  | case4 c d r hc hd ih =>
    rw [List.countP_cons_of_neg hc]
    exact Nat.le_succ_of_le ih
  | case5 c d r hc hd ih =>
    rw [List.countP_cons_of_neg hc]
    exact ih

/-- The path of a screenshot's file holds more than is left of the screenshot's name. -/
theorem shotPath_text_ne (directory : Path) (index : Nat) (name : String) :
    (shotPath directory index name).text ≠ "" ∧ (shotPath directory index name).text ≠ name := by
  obtain ⟨lead, htext⟩ : ∃ lead, (shotPath directory index name).text.toList =
      lead ++ ((safeName index name).toList ++ ".png".toList) := by
    rw [shotPath_eq, Path.text_join_name (ofString_shotName index name), shotName]
    generalize (directory / "screens").root ++ _ = front
    exact ⟨front.toList ++ (threePlaces index ++ "_").toList, by simp⟩
  have hne : (shotPath directory index name).text ≠ "" := by
    intro h
    rw [h] at htext
    simp at htext
  refine ⟨hne, fun h => ?_⟩
  rw [h] at hne htext
  have hsafe : (safeName index name).toList = fileName name.toList := by
    rw [safeName_of_ne hne, String.toList_ofList]
  have hkept : (fileName name.toList).countP isNameChar = (fileName name.toList).length :=
    List.countP_eq_length.mpr isNameChar_of_mem_fileName
  have hcount := congrArg (List.countP isNameChar) htext
  have hsuffix : ".png".toList.countP isNameChar = 4 := by decide
  rw [List.countP_append, List.countP_append, hsafe, hkept, hsuffix] at hcount
  have hle := countP_le_length_fileName name.toList
  omega

end Run

end Walkthrough
