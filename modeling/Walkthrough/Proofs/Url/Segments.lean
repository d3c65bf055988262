import Walkthrough.Proofs.Identifier
import Walkthrough.Proofs.Url.Flag
import Walkthrough.Proofs.Url.Mount
/-!
Segments in visited URLs. Segments are filled in the path that a route is configured with, and
looked at in the path of the URL that is visited: the two agree as long as no query, no fragment and
no character that is dropped stands in a segment that is dynamic in one of them only.
-/

namespace Walkthrough

namespace Url

/-- What a URL's path has of a text: what counts of it, up to a query or a fragment. -/
def shown (s : List Char) : List Char := pathPart (s.filter (!isDropped ·))

/-- A query or a fragment begins. -/
def isMark (c : Char) : Bool := c == '?' || c == '#'

theorem shown_append {s : List Char} (hs : ∀ c ∈ s, isMark c = false) (r : List Char) :
    shown (s ++ r) = shown s ++ shown r := by
  have hkept : ∀ c ∈ s.filter (!isDropped ·), c ≠ '?' ∧ c ≠ '#' := by
    intro c hc
    simpa [isMark] using hs c (List.mem_filter.mp hc).1
  have hown := pathPart_append (r := []) hkept
  rw [List.append_nil] at hown
  rw [shown, shown, shown, List.filter_append, pathPart_append hkept, hown, List.append_assoc]
  rfl

theorem shown_mark {c : Char} (hc : isMark c = true) (r : List Char) : shown (c :: r) = [] := by
  refine pathPart_of_endsPath (EndsPath.filter ?_)
  rintro d ⟨⟩
  simpa [isMark] using hc

/-- Behind a mark, nothing is shown. -/
theorem shown_append_of_mark {s : List Char} (hs : s.any isMark = true) (r : List Char) :
    shown (s ++ r) = shown s := by
  induction s with
  | nil => cases hs
  | cons c s ih =>
    by_cases hc : isMark c = true
    · rw [List.cons_append, shown_mark hc, shown_mark hc]
    · rw [List.any_cons, Bool.or_eq_true] at hs
      have hone : ∀ d ∈ [c], isMark d = false := by simpa using hc
      have hcons (t : List Char) : shown (c :: t) = shown [c] ++ shown t := shown_append hone t
      rw [List.cons_append, hcons, hcons s, ih (hs.resolve_left hc)]

theorem mem_of_mem_shown {s : List Char} {c : Char} (h : c ∈ shown s) :
    c ∈ s ∧ isDropped c = false := by
  have hc := List.mem_filter.mp (mem_of_mem_pathPart h)
  exact ⟨hc.1, by simpa using hc.2⟩

/-- The segments that are written for a URL's path: up to the one in which a query or a fragment
begins. -/
def written : List (List Char) → List (List Char)
  | [] => []
  | s :: ss => if s.any isMark then [s] else s :: written ss

/-- The segments of what is shown are what is shown of the segments. -/
theorem pieces_shown_intercalate {ps : List (List Char)} (hne : ps ≠ []) (h : ∀ p ∈ ps, '/' ∉ p) :
    Text.pieces '/' (shown (['/'].intercalate ps)) = (written ps).map shown := by
  induction ps with
  | nil => exact absurd rfl hne
  | cons p ps ih =>
    rw [List.forall_mem_cons] at h
    have hslash : '/' ∉ shown p := fun hc => h.1 (mem_of_mem_shown hc).1
    cases ps with
    | nil =>
      have hw : written [p] = [p] := by
        rw [written]
        split_ifs <;> rfl
      rw [List.intercalate_singleton, Text.pieces_of_not_mem hslash, hw]
      rfl
    | cons q qs =>
      rw [List.intercalate_cons_cons, List.append_assoc, List.singleton_append, written]
      split_ifs with hmark
      · rw [shown_append_of_mark hmark, Text.pieces_of_not_mem hslash]
        rfl
      · have hplain : ∀ c ∈ p, isMark c = false := by simpa using hmark
        have hcons (t : List Char) : shown ('/' :: t) = '/' :: shown t :=
          shown_append (s := ['/']) (List.forall_mem_singleton.mpr rfl) t
        rw [shown_append hplain, hcons, Text.pieces_append_cons hslash, ih (by simp) h.2]
        rfl

theorem pieces_shown (s : List Char) :
    Text.pieces '/' (shown s) = (written (Text.pieces '/' s)).map shown := by
  have h := pieces_shown_intercalate (Text.pieces_ne_nil '/' s) fun _ => Text.not_mem_of_mem_pieces
  rwa [Text.intercalate_pieces] at h

end Url

open Url

/-- A segment with something in its place if it is dynamic. -/
def fillSegment (sample s : List Char) : List Char := if isDynamic s then sample else s

theorem fillSegment_fillSegment (sample s : List Char) :
    fillSegment sample (fillSegment sample s) = fillSegment sample s := by
  unfold fillSegment
  split_ifs <;> rfl

theorem toList_fillSegments (path sample : String) : (fillSegments path sample).toList =
    ['/'].intercalate ((Text.pieces '/' path.toList).map (fillSegment sample.toList)) := by
  rw [fillSegments, String.toList_intercalate, String.pieces, List.map_map, List.map_map]
  refine congrArg _ (List.map_congr_left fun s _ => ?_)
  simp only [Function.comp_apply, String.toList_ofList, fillSegment]
  split_ifs <;> simp

/-- Filling keeps the number and the places of a path's segments. -/
theorem pieces_fillSegments (path : String) {sample : String} (hs : '/' ∉ sample.toList) :
    Text.pieces '/' (fillSegments path sample).toList =
      (Text.pieces '/' path.toList).map (fillSegment sample.toList) := by
  rw [toList_fillSegments]
  refine Text.pieces_intercalate (by simpa using Text.pieces_ne_nil '/' path.toList) ?_
  refine List.forall_mem_map.mpr fun s hp => ?_
  unfold fillSegment
  split_ifs
  · exact hs
  · exact Text.not_mem_of_mem_pieces hp

theorem fillSegments_fillSegments (path : String) {sample : String} (hs : '/' ∉ sample.toList) :
    fillSegments (fillSegments path sample) sample = fillSegments path sample := by
  rw [← String.toList_inj, toList_fillSegments, pieces_fillSegments path hs, List.map_map,
    toList_fillSegments]
  exact congrArg _ (List.map_congr_left fun s _ => fillSegment_fillSegment sample.toList s)

theorem isDynamic_iff {s : List Char} : isDynamic s = true ↔
    (isBracketed s || isColonName s) = true ∨
      ∃ t, s = t ++ ['\n'] ∧ (isBracketed t || isColonName t) = true := upToLineFeed_iff

/-- A dynamic segment begins with a bracket or a colon. -/
theorem head?_of_isDynamic {s : List Char} (h : isDynamic s = true) :
    s.head? = some '[' ∨ s.head? = some ':' := by
  have hform {t : List Char} (ht : (isBracketed t || isColonName t) = true) :
      t.head? = some '[' ∨ t.head? = some ':' := by
    rw [Bool.or_eq_true] at ht
    unfold isBracketed isColonName at ht
    rcases ht with ht | ht
    · split at ht
      · exact .inl rfl
      · cases ht
    · split at ht
      · exact .inr rfl
      · cases ht
  obtain hs | ⟨t, rfl, ht⟩ := isDynamic_iff.mp h
  · exact hform hs
  · have hhead := hform ht
    cases t with
    | nil => cases ht
    | cons c t => exact hhead

/-- What is shown of a dynamic segment begins like it, and so is not the sample. -/
theorem head?_shown_of_isDynamic {s : List Char} (h : isDynamic s = true) :
    (shown s).head? = s.head? ∧ s.head? ≠ sampleSegment.toList.head? := by
  have hhead {c : Char} (hc : shown [c] = [c]) (hs : s.head? = some c) :
      (shown s).head? = s.head? := by
    obtain ⟨r, rfl⟩ : ∃ r, s = c :: r := List.head?_eq_some_iff.mp hs
    have hplain : ∀ d ∈ [c], isMark d = false := by
      intro d hd
      by_contra hmark
      rw [List.mem_singleton] at hd
      rw [hd, Bool.not_eq_false] at hmark
      rw [shown_mark hmark] at hc
      cases hc
    rw [← List.singleton_append, shown_append hplain, hc]
    rfl
  rcases head?_of_isDynamic h with hs | hs
  · exact ⟨hhead (by decide) hs, by rw [hs]; decide⟩
  · exact ⟨hhead (by decide) hs, by rw [hs]; decide⟩

/-- A name between brackets. -/
theorem isBracketed_cases {s : List Char} (h : isBracketed s = true) :
    ∃ name close, s = '[' :: (name ++ close) ∧ ']' ∉ name ∧
      (close = [']'] ∨ close = [']', ']']) := by
  unfold isBracketed at h
  split at h
  · next r =>
    simp only [Bool.and_eq_true, Bool.or_eq_true, beq_iff_eq] at h
    refine ⟨r.takeWhile (· != ']'), r.dropWhile (· != ']'), ?_, ?_, h.2⟩
    · rw [List.takeWhile_append_dropWhile]
    · intro hc
      simpa using List.mem_takeWhile_imp hc
  · cases h

theorem not_isMark_of_isColonName {s : List Char} (h : isColonName s = true) :
    ∀ c ∈ s, isMark c = false := by
  have hword {c : Char} (hc : (isAlnum c || c == '_') = true) : isMark c = false := by
    by_contra hm
    rw [Bool.not_eq_false, isMark, Bool.or_eq_true, beq_iff_eq, beq_iff_eq] at hm
    rcases hm with rfl | rfl <;> cases hc
  unfold isColonName isVariable at h
  split at h
  · split at h
    · next c r =>
      rw [Bool.and_eq_true, List.all_eq_true] at h
      refine List.forall_mem_cons.mpr
        ⟨rfl, List.forall_mem_cons.mpr ⟨?_, fun d hd => hword (h.2 d hd)⟩⟩
      refine hword ?_
      have hstart := h.1
      rw [isVariableStart, Bool.or_eq_true, Bool.and_eq_true] at hstart
      rw [Bool.or_eq_true]
      exact hstart.imp_left (·.1)
    · cases h
  · cases h

/-- A dynamic segment in which a query or a fragment begins is not dynamic for the URL: its bracket
is not closed there. -/
theorem isDynamic_shown_of_mark {s : List Char} (h : isDynamic s = true)
    (hm : s.any isMark = true) : isDynamic (shown s) = false := by
  have hopen {t : List Char} (ht : (isBracketed t || isColonName t) = true)
      (hm : t.any isMark = true) : ∃ r, shown t = '[' :: r ∧ ']' ∉ r := by
    rw [Bool.or_eq_true] at ht
    rcases ht with ht | ht
    · obtain ⟨name, close, rfl, hname, hclose⟩ := isBracketed_cases ht
      have hmark : name.any isMark = true := by
        rcases hclose with rfl | rfl <;> simpa [isMark] using hm
      have hshown : shown ('[' :: (name ++ close)) = '[' :: shown (name ++ close) :=
        shown_append (s := ['[']) (List.forall_mem_singleton.mpr rfl) _
      rw [hshown, shown_append_of_mark hmark]
      exact ⟨_, rfl, fun hc => hname (mem_of_mem_shown hc).1⟩
    · have hnone := not_isMark_of_isColonName ht
      rw [List.any_eq_true] at hm
      obtain ⟨c, hc, hmark⟩ := hm
      rw [hnone c hc] at hmark
      cases hmark
  have hshown : ∃ r, shown s = '[' :: r ∧ ']' ∉ r := by
    obtain hs | ⟨t, rfl, ht⟩ := isDynamic_iff.mp h
    · exact hopen hs hm
    · have hmark : t.any isMark = true := by simpa [isMark] using hm
      rw [shown_append_of_mark hmark]
      exact hopen ht hmark
  obtain ⟨r, hr, hclosed⟩ := hshown
  rw [← Bool.not_eq_true]
  intro hd
  obtain hd | ⟨t, ht, -⟩ := isDynamic_iff.mp hd
  · rw [hr, Bool.or_eq_true] at hd
    rcases hd with hd | hd
    · obtain ⟨name, close, he, -, hclose⟩ := isBracketed_cases hd
      cases he
      rcases hclose with rfl | rfl <;> simp at hclosed
    · cases hd
  · have hfeed : '\n' ∈ shown s := ht ▸ List.mem_append_right t (List.mem_singleton_self '\n')
    cases (mem_of_mem_shown hfeed).2

/-- A segment is filled alike before and after the URL is read, exactly if it is dynamic both times
or neither time. -/
theorem shown_fillSegment_iff (s : List Char) :
    shown (fillSegment sampleSegment.toList s) = fillSegment sampleSegment.toList (shown s) ↔
      isDynamic s = isDynamic (shown s) := by
  have hsample : shown sampleSegment.toList = sampleSegment.toList := by decide
  unfold fillSegment
  rcases hd : isDynamic s with _ | _ <;> rcases hd' : isDynamic (shown s) with _ | _
  · simp
  · have hne : shown s ≠ sampleSegment.toList := by
      intro he
      rw [he] at hd'
      revert hd'
      decide
    simpa using hne
  · have hne : sampleSegment.toList ≠ shown s := by
      intro he
      obtain ⟨hhead, hother⟩ := head?_shown_of_isDynamic hd
      rw [← hhead, ← he] at hother
      exact hother rfl
    simpa [hsample] using hne
  · simp [hsample]

/-- Filling the written segments shows the shown segments filled, exactly if each of them is dynamic
both times or neither time. -/
theorem written_map_fillSegment_iff (ps : List (List Char)) :
    (written (ps.map (fillSegment sampleSegment.toList))).map shown =
        ((written ps).map shown).map (fillSegment sampleSegment.toList) ↔
      ∀ s ∈ written ps, isDynamic s = isDynamic (shown s) := by
  induction ps with
  | nil => simp [written]
  | cons s ss ih =>
    by_cases hm : s.any isMark = true
    · have hone : written (s :: ss) = [s] := by rw [written, if_pos hm]
      rcases hd : isDynamic s with _ | _
      · have hfill : fillSegment sampleSegment.toList s = s := by rw [fillSegment, hd]; rfl
        have hsame := shown_fillSegment_iff s
        rw [hfill] at hsame
        rw [List.map_cons, hfill, written, if_pos hm, hone]
        simpa using hsame
      · -- segments behind the mark are shown now, but the one with the mark is already another
        have hother : ¬isDynamic s = isDynamic (shown s) := by
          rw [hd, isDynamic_shown_of_mark hd hm]
          decide
        have hfill : fillSegment sampleSegment.toList s = sampleSegment.toList := by
          rw [fillSegment, hd]
          rfl
        have hplain : ¬(sampleSegment.toList.any isMark = true) := by decide
        have hne := mt (shown_fillSegment_iff s).mp hother
        rw [List.map_cons, hfill, written, if_neg hplain, hone]
        rw [hfill] at hne
        simp [hne, hother]
    · have hplain : ¬((fillSegment sampleSegment.toList s).any isMark = true) := by
        unfold fillSegment
        split_ifs
        · decide
        · exact hm
      rw [List.map_cons, written, if_neg hplain, written, if_neg hm, List.map_cons, List.map_cons,
        List.map_cons, List.cons.injEq, shown_fillSegment_iff, ih, List.forall_mem_cons]

/-- The segments that are shown of a filled path. -/
theorem pieces_shown_fillSegments_iff (path : String) :
    Text.pieces '/' (shown (fillSegments path).toList) =
        (Text.pieces '/' (shown path.toList)).map (fillSegment sampleSegment.toList) ↔
      ∀ s ∈ written (Text.pieces '/' path.toList), isDynamic s = isDynamic (shown s) := by
  rw [pieces_shown, pieces_fillSegments path (by decide), pieces_shown]
  exact written_map_fillSegment_iff _

theorem mem_of_mem_withoutFinalSlashes {s : String} {c : Char}
    (h : c ∈ s.withoutFinalSlashes.toList) : c ∈ s.toList := by
  rw [String.withoutFinalSlashes, String.toList_ofList] at h
  exact (List.rdropWhile_prefix (· == '/') s.toList).subset h

/-- The path of a route's URL, behind the path of the app, has the segments that are shown of the
route's path, each filled if it is dynamic, exactly if none of those that are written for them is
dynamic in one place only; and a path that is filled is filled. -/
theorem routeUrl_segments {base path : String} {b : Url}
    (hb : Url.parse base.withoutFinalSlashes = .ok b) (ha : b.authority ≠ [])
    (hm : ∀ c ∈ base.toList, c ≠ '?' ∧ c ≠ '#') (hp : path.toList.head? = some '/') :
    (∀ tourMode, ∃ url u seen, routeUrl base path tourMode = .ok url ∧ Url.parse url = .ok u ∧
      u.path = b.path ++ seen ∧
      (Text.pieces '/' seen =
          (Text.pieces '/' (shown path.toList)).map (fillSegment sampleSegment.toList) ↔
        ∀ s ∈ written (Text.pieces '/' path.toList), isDynamic s = isDynamic (shown s))) ∧
    ∀ path sample : String, '/' ∉ sample.toList →
      fillSegments (fillSegments path sample) sample = fillSegments path sample := by
  obtain ⟨query, fragment, hparse⟩ := parse_append hb ha
    (fun c hc => hm c (mem_of_mem_withoutFinalSlashes hc)) (head?_fillSegments hp)
  have hiff := pieces_shown_fillSegments_iff path
  refine ⟨fun tourMode => ?_, fun path sample hs => fillSegments_fillSegments path hs⟩
  cases tourMode with
  | false => exact ⟨_, _, _, rfl, hparse, rfl, hiff⟩
  | true =>
    obtain ⟨url, hurl, hflagged⟩ := parse_flagTour hparse ha
    exact ⟨url, _, _, hurl, hflagged, rfl, hiff⟩

theorem routeUrl_segments_query :
    let base := "http://app.test/"
    let path := "/users/[id]?tab=1"
    let b : Url := ⟨"http".toList, "app.test".toList, [], [], []⟩
    Url.parse base.withoutFinalSlashes = .ok b ∧ b.authority ≠ [] ∧
    (∀ c ∈ base.toList, c ≠ '?' ∧ c ≠ '#') ∧ path.toList.head? = some '/' ∧
    ∃ url u seen, routeUrl base path = .ok url ∧ Url.parse url = .ok u ∧ u.path = b.path ++ seen ∧
      Text.pieces '/' seen ≠
        (Text.pieces '/' (shown path.toList)).map (fillSegment sampleSegment.toList) := by
  intro base path b
  have hb : Url.parse base.withoutFinalSlashes = .ok b := ok_of_toOption (by decide +kernel)
  have ha : b.authority ≠ [] := by decide
  have hm : ∀ c ∈ base.toList, c ≠ '?' ∧ c ≠ '#' := by
    have hall : base.toList.all (fun c => c != '?' && c != '#') = true := by decide
    simpa using hall
  have hp : path.toList.head? = some '/' := by decide
  obtain ⟨url, u, seen, hurl, hu, hseen, hiff⟩ := (routeUrl_segments hb ha hm hp).1 true
  refine ⟨hb, ha, hm, hp, url, u, seen, hurl, hu, hseen, fun h => ?_⟩
  exact absurd (hiff.mp h) (by decide)

end Walkthrough
