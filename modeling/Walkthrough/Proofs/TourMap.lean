import Mathlib.Data.List.DropRight
import Walkthrough.Proofs.Except
import Walkthrough.Proofs.Text.Lines
import Walkthrough.Proofs.Text.Sorted
import Walkthrough.Proofs.Tour.Acceptance
import Walkthrough.TourMap
import Walkthrough.Vocabulary
/-!
What a tour map is made of: anchors in order, each once; entries under keys, each once; and reasons
that say something.
-/

namespace Walkthrough

namespace Text

/-- What is left of a text does not begin with white space. -/
theorem head?_trim (s : List Char) : ∀ c ∈ (trim s).head?, isBlank c = false := by
  intro c hc
  have hpre : trim s <+: s.dropWhile isBlank := List.rdropWhile_prefix _ _
  obtain ⟨r, hr⟩ := List.head?_eq_some_iff.mp hc
  have hhead : (s.dropWhile isBlank).head? = some c := by
    obtain ⟨t, ht⟩ := hpre
    rw [← ht, hr]
    rfl
  have h := List.head?_dropWhile_not isBlank s
  rw [hhead] at h
  exact h

/-- A text that does not begin with white space begins with a line that is not empty. -/
theorem lines_head?_ne_nil {s l : List Char} (hs : ∀ c ∈ s.head?, isBlank c = false)
    (hl : (lines s).head? = some l) : l ≠ [] := by
  cases s with
  | nil => cases hl
  | cons c r =>
    rw [lines_plain (isBreak_of_not_isBlank (hs c rfl))] at hl
    cases hr : lines r with
    | nil =>
      rw [hr] at hl
      cases hl
      simp
    | cons l' ls =>
      rw [hr] at hl
      cases hl
      simp

end Text

/-- The first line of a text that has something other than white space is not empty. -/
theorem firstLine?_ne_empty {s l : String} (h : s.firstLine? = some l) : l ≠ "" := by
  unfold String.firstLine? String.brokenLines String.trimBlank at h
  rw [String.toList_ofList, List.head?_map, Option.map_eq_some_iff] at h
  obtain ⟨line, hline, rfl⟩ := h
  have hne := Text.lines_head?_ne_nil (Text.head?_trim s.toList) hline
  intro hempty
  exact hne (String.ofList_eq_empty_iff.mp hempty)

theorem Fault.firstLine_ne_empty (f : Fault) : f.firstLine ≠ "" := by
  unfold firstLine
  cases hl : f.message.firstLine? with
  | some l => exact firstLine?_ne_empty hl
  | none =>
    unfold title
    split <;> decide

namespace TourMap

/-- An entry under a new key comes last. -/
theorem putRoute_of_not_mem {es : List (String × MapEntry)} {key : String}
    (h : key ∉ es.map (·.1)) (e : MapEntry) : putRoute es key e = es ++ [(key, e)] := by
  induction es with
  | nil => rfl
  | cons d es ih =>
    rw [List.map_cons, List.mem_cons, not_or] at h
    rw [putRoute, if_neg (Ne.symm h.1), ih h.2]
    rfl

/-- The entry that a map has under a key. -/
def entry? (m : TourMap) (key : String) : Option MapEntry := m.routes.lookup key

variable {es : List (String × MapEntry)} {key : String} {e : MapEntry}

theorem lookup_cons (k : String) (d : MapEntry) (es : List (String × MapEntry)) (key : String) :
    ((k, d) :: es).lookup key = if key = k then some d else es.lookup key := by
  rw [List.lookup_cons]
  by_cases h : key = k
  · simp [h]
  · rw [beq_eq_false_iff_ne.mpr h, if_neg h]

/-- An entry that is put covers the one that its key had, and no other. -/
theorem lookup_putRoute (es : List (String × MapEntry)) (k : String) (e : MapEntry) (key : String) :
    (putRoute es k e).lookup key = if key = k then some e else es.lookup key := by
  induction es with
  | nil => rw [putRoute, lookup_cons]
  | cons d es ih =>
    obtain ⟨k', d⟩ := d
    rw [putRoute, lookup_cons]
    by_cases hk : k' = k
    · subst hk
      rw [if_pos rfl, lookup_cons]
      split_ifs <;> rfl
    · rw [if_neg hk, lookup_cons, ih]
      by_cases hkey : key = k'
      · subst hkey
        rw [if_pos rfl, if_pos rfl, if_neg hk]
      · rw [if_neg hkey, if_neg hkey]

theorem keys_putRoute (es : List (String × MapEntry)) (k : String) (e : MapEntry) :
    (putRoute es k e).map (·.1) =
      if k ∈ es.map (·.1) then es.map (·.1) else es.map (·.1) ++ [k] := by
  induction es with
  | nil => rfl
  | cons d es ih =>
    obtain ⟨k', d⟩ := d
    rw [putRoute]
    by_cases hk : k' = k
    · simp [hk]
    · have hk' : k ≠ k' := Ne.symm hk
      rw [if_neg hk, List.map_cons, ih]
      simp only [List.map_cons, List.mem_cons, hk', false_or]
      split_ifs <;> rfl

theorem nodup_keys_putRoute (h : (es.map (·.1)).Nodup) (k : String) (e : MapEntry) :
    ((putRoute es k e).map (·.1)).Nodup := by
  rw [keys_putRoute]
  split_ifs with hk
  · exact h
  · refine List.nodup_append.mpr ⟨h, List.pairwise_singleton _ _, fun k' hk' l hl heq => ?_⟩
    rw [heq, List.mem_singleton.mp hl] at hk'
    exact hk hk'

/-- Where each key stands once, what stands under a key is what is found under it. -/
theorem mem_iff_lookup (h : (es.map (·.1)).Nodup) : (key, e) ∈ es ↔ es.lookup key = some e := by
  induction es with
  | nil => simp
  | cons d es ih =>
    obtain ⟨k, d⟩ := d
    rw [List.map_cons, List.nodup_cons] at h
    rw [List.mem_cons, ih h.2, lookup_cons]
    by_cases hkey : key = k
    · subst hkey
      have hnone : es.lookup key ≠ some e := fun he =>
        h.1 (List.mem_map.mpr ⟨(key, e), (ih h.2).mpr he, rfl⟩)
      simp [hnone, eq_comm]
    · simp [hkey]

theorem mem_anchorSet {m : TourMap} (h : (m.routes.map (·.1)).Nodup) {a : String} :
    a ∈ m.anchorSet ↔ ∃ key e, m.entry? key = some e ∧ a ∈ e.anchors := by
  rw [anchorSet, Text.mem_sortedSet, anchors, List.mem_flatMap]
  constructor
  · rintro ⟨⟨key, e⟩, he, ha⟩
    exact ⟨key, e, (mem_iff_lookup h).mp he, ha⟩
  · rintro ⟨key, e, he, ha⟩
    exact ⟨(key, e), (mem_iff_lookup h).mpr he, ha⟩

theorem strs?_of_accepts {v : Json}
    (h : (Schema.rules [.kind .array, .items Tour.textFormat]).accepts v = true) :
    ∃ ts, v.strs? = some ts := by
  cases v with
  | arr vs =>
    refine exists_mapM_some fun w hw => ?_
    have hitem := Schema.accepts_item h (List.mem_cons_of_mem _ List.mem_cons_self) w hw
    obtain ⟨t, rfl, -⟩ := (Tour.textFormat_takes w).mp hitem
    exact ⟨t, rfl⟩
  | _ =>
    rw [Schema.accepts_rules, List.all_cons] at h
    cases h

theorem texts?_of_accepts {v : Json} {key : String} (hthere : (v.get? key).isSome = true)
    (h : (v.get? key).all
      (Schema.rules [.kind .array, .items Tour.textFormat]).accepts = true) :
    ∃ ts, texts? v key = some ts := by
  obtain ⟨w, hw⟩ := Option.isSome_iff_exists.mp hthere
  rw [hw, Option.all_some] at h
  rw [texts?, hw]
  exact strs?_of_accepts h

/-- The format of a route's entry. -/
def entryFormat : Schema := .rules [
  .kind .object,
  .required ["path", "anchors"],
  .properties [
    ("path", .rules [.kind .string]),
    ("anchors", .rules [.kind .array, .items (.rules [.kind .string])]),
    ("skippedReason", .rules [.kind .string])]]

theorem entryOf?_of_accepts {v : Json} (h : entryFormat.accepts v = true) :
    ∃ e, entryOf? v = some e := by
  have hrequired (key : String) (hk : key ∈ ["path", "anchors"]) : (v.get? key).isSome = true :=
    Schema.accepts_required h List.mem_cons_self (List.mem_cons_of_mem _ List.mem_cons_self) hk
  have hmember {key : String} {F : Schema} (hk : (key, F) ∈ [
      ("path", Schema.rules [.kind .string]),
      ("anchors", .rules [.kind .array, .items (.rules [.kind .string])]),
      ("skippedReason", .rules [.kind .string])]) : (v.get? key).all F.accepts = true :=
    Schema.accepts_member h
      (List.mem_cons_of_mem _ (List.mem_cons_of_mem _ List.mem_cons_self)) hk
  obtain ⟨path, hpath, -⟩ := Tour.textFormat_takes.get?_of_isSome (hrequired "path" (by simp))
    (hmember List.mem_cons_self)
  obtain ⟨anchors, hanchors⟩ := texts?_of_accepts (hrequired "anchors" (by simp))
    (hmember (List.mem_cons_of_mem _ List.mem_cons_self))
  have htext : text? v "path" = some path := by rw [text?, hpath]; rfl
  exact ⟨⟨path, anchors, text? v "skippedReason"⟩, by rw [entryOf?, htext, hanchors]; rfl⟩

/-- A document of the format of maps is a map. -/
theorem exists_of_accepts {v : Json} (h : format.accepts v = true) : ∃ m, ofJson? v = some m := by
  have hrequired (key : String) (hk : key ∈ ["routes", "events"]) : (v.get? key).isSome = true :=
    Schema.accepts_required h List.mem_cons_self (List.mem_cons_of_mem _ List.mem_cons_self) hk
  have hmember {key : String} {F : Schema} (hk : (key, F) ∈ [
      ("generatedAt", Schema.rules [.kind .string]),
      ("routes", .rules [.kind .object, .additional [] (some entryFormat)]),
      ("events", .rules [.kind .array, .items (.rules [.kind .string])])]) :
      (v.get? key).all F.accepts = true :=
    Schema.accepts_member h
      (List.mem_cons_of_mem _ (List.mem_cons_of_mem _ List.mem_cons_self)) hk
  obtain ⟨events, hevents⟩ := texts?_of_accepts (hrequired "events" (by simp))
    (hmember (List.mem_cons_of_mem _ (List.mem_cons_of_mem _ List.mem_cons_self)))
  obtain ⟨w, hw⟩ := Option.isSome_iff_exists.mp (hrequired "routes" (by simp))
  have hroutes := hmember (List.mem_cons_of_mem _ List.mem_cons_self)
  rw [hw, Option.all_some, Schema.accepts_rules, List.all_eq_true] at hroutes
  cases w with
  | obj ms =>
    have hentries := List.all_eq_true.mp (hroutes _ (List.mem_cons_of_mem _ List.mem_cons_self))
    obtain ⟨routes, hms⟩ : ∃ routes,
        (ms.mapM fun m => (entryOf? m.2).map (m.1, ·)) = some routes := by
      refine exists_mapM_some fun m hm => ?_
      obtain ⟨e, he⟩ := entryOf?_of_accepts (by simpa using hentries m hm)
      exact ⟨(m.1, e), by rw [he]; rfl⟩
    refine ⟨⟨(text? v "generatedAt").getD "", routes, events⟩, ?_⟩
    simp only [ofJson?, hw, hms, hevents]
    rfl
  | _ => cases hroutes _ List.mem_cons_self

end TourMap

namespace Vocabulary

theorem nodup_of_repeated? {seen ts : List String} (h : repeated? seen ts = none) :
    ts.Nodup ∧ ∀ t ∈ ts, t ∉ seen := by
  induction ts generalizing seen with
  | nil => simp
  | cons t ts ih =>
    rw [repeated?] at h
    by_cases ht : seen.contains t = true
    · rw [if_pos ht] at h
      cases h
    · rw [if_neg ht] at h
      obtain ⟨hd, hn⟩ := ih h
      have hseen : t ∉ seen := by simpa using ht
      refine ⟨List.nodup_cons.mpr ⟨fun hmem => hn t hmem List.mem_cons_self, hd⟩, ?_⟩
      intro u hu
      rcases List.mem_cons.mp hu with rfl | hu
      · exact hseen
      · exact fun hs => hn u hu (List.mem_cons_of_mem _ hs)

/-- No two routes of a vocabulary that was read have one key. -/
theorem nodup_of_load {st : Store} {directory : Path} {v : Vocabulary}
    (h : load st directory = .ok v) : v.routeKeys.Nodup := by
  unfold load at h
  obtain ⟨routesFile, -, h⟩ := bind_eq_ok.mp h
  obtain ⟨eventsFile, -, h⟩ := bind_eq_ok.mp h
  dsimp only at h
  split at h
  · cases h
  · next hnone =>
    cases h
    exact (nodup_of_repeated? hnone).1

theorem accepts_of_readFile {st : Store} {file : Path} {format : Schema} {v : Json}
    (h : readFile st file format = .ok v) : format.accepts v = true := by
  unfold readFile at h
  obtain ⟨text, -, h⟩ := bind_eq_ok.mp h
  split at h
  · cases h
  · cases h
  · next w _ =>
    split at h
    · cases h
    · next hnone =>
      cases h
      exact (Schema.complaint?_eq_none_iff format v).mp hnone

/-- Every path that a vocabulary is read with begins with a slash. -/
theorem rooted_of_load {st : Store} {directory : Path} {v : Vocabulary}
    (h : load st directory = .ok v) : ∀ r ∈ v.routes, r.path.toList.head? = some '/' := by
  unfold load at h
  obtain ⟨file, hfile, h⟩ := bind_eq_ok.mp h
  obtain ⟨eventsFile, -, h⟩ := bind_eq_ok.mp h
  dsimp only at h
  split at h
  · cases h
  · cases h
    intro r hr
    obtain ⟨w, hw, rfl⟩ := List.mem_map.mp hr
    have hroutes := Schema.accepts_member (k := "routes") (accepts_of_readFile hfile)
      (List.mem_cons_of_mem _ (List.mem_cons_of_mem _ List.mem_cons_self)) List.mem_cons_self
    unfold list at hw
    split at hw
    · next vs hvs =>
      rw [hvs, Option.all_some] at hroutes
      have hroute := Schema.accepts_item hroutes
        (List.mem_cons_of_mem _ List.mem_cons_self) w hw
      have hthere : (w.get? "path").isSome = true :=
        Schema.accepts_required hroute List.mem_cons_self
          (List.mem_cons_of_mem _ List.mem_cons_self) (List.mem_cons_of_mem _ List.mem_cons_self)
      have hform := Schema.accepts_member (k := "path") hroute
        (List.mem_cons_of_mem _ (List.mem_cons_of_mem _ List.mem_cons_self))
        (List.mem_cons_of_mem _ List.mem_cons_self)
      obtain ⟨t, ht, hrooted⟩ := (Tour.formFormat_takes .rooted).get?_of_isSome hthere hform
      simp only [text, ht]
      exact eq_of_beq hrooted
    · cases hw

end Vocabulary

end Walkthrough
