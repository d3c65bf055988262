import Walkthrough.Proofs.Text.Lines
import Walkthrough.Proofs.TourMap.Groups
/-!
The document of a map as its readers see it: an outline, in which each point stands under others.
The section of a route lists each anchor of the route as often as the route has it, in order and
under the headings of its own groups; no heading is there twice, and none without an anchor.
-/

namespace Walkthrough.TourMap

/-- The text of a point and how deep it is, two blanks a step. -/
def pointFrom (depth : Nat) : List Char → Option (Nat × String)
  | ' ' :: ' ' :: r => pointFrom (depth + 1) r
  | '-' :: ' ' :: r => some (depth, String.ofList r)
  | _ => none

def point? (line : String) : Option (Nat × String) := pointFrom 0 line.toList

/-- The points of an outline from top to bottom, each behind those that it stands under, given the
one that was read last. -/
def outline (last : List String) : List String → List (List String)
  | [] => []
  | line :: lines =>
    match point? line with
    | none => outline last lines
    | some (depth, text) => (last.take depth ++ [text]) :: outline (last.take depth ++ [text]) lines

/-- Lines that stand under some points are read as further points under these. -/
def Reads (above lines : List String) (points : List (List String)) : Prop :=
  ∀ last rest, above <+: last → ∃ last', above <+: last' ∧
    outline last (lines ++ rest) = points ++ outline last' rest

namespace Reads

variable {above lines lines' : List String} {points points' : List (List String)}

theorem outline_eq (h : Reads [] lines points) : outline [] lines = points := by
  obtain ⟨last', -, h⟩ := h [] [] List.prefix_rfl
  rw [List.append_nil] at h
  rw [h, outline, List.append_nil]

theorem nil (above : List String) : Reads above [] [] := fun last _ h => ⟨last, h, rfl⟩

theorem append (h : Reads above lines points) (h' : Reads above lines' points') :
    Reads above (lines ++ lines') (points ++ points') := by
  intro last rest hlast
  obtain ⟨last₁, hlast₁, h₁⟩ := h last (lines' ++ rest) hlast
  obtain ⟨last₂, hlast₂, h₂⟩ := h' last₁ rest hlast₁
  exact ⟨last₂, hlast₂, by rw [List.append_assoc, h₁, h₂, List.append_assoc]⟩

theorem flatMap {α : Type} {xs : List α} {f : α → List String} {g : α → List (List String)}
    (h : ∀ x ∈ xs, Reads above (f x) (g x)) : Reads above (xs.flatMap f) (xs.flatMap g) := by
  induction xs with
  | nil => exact nil above
  | cons x xs ih =>
    rw [List.forall_mem_cons] at h
    rw [List.flatMap_cons, List.flatMap_cons]
    exact h.1.append (ih h.2)

/-- A line that is no point is passed over. -/
theorem plain {line : String} (hl : point? line = none) (above : List String) :
    Reads above [line] [] := by
  intro last rest hlast
  refine ⟨last, hlast, ?_⟩
  rw [List.singleton_append, outline, hl]
  rfl

/-- A point goes before the lines that stand under it. -/
theorem under {line text : String} (hl : point? line = some (above.length, text))
    (h : Reads (above ++ [text]) lines points) :
    Reads above (line :: lines) ((above ++ [text]) :: points) := by
  intro last rest hlast
  have htake : last.take above.length = above := (List.prefix_iff_eq_take.mp hlast).symm
  obtain ⟨last', hlast', hrest⟩ := h (above ++ [text]) rest List.prefix_rfl
  refine ⟨last', (List.prefix_append above [text]).trans hlast', ?_⟩
  rw [List.cons_append, outline, hl]
  simp only [htake, hrest, List.cons_append]

end Reads

/-- A level of headings: what anchors are grouped by, and how the name of a group is shown. -/
structure Level where
  key : String → String
  shown : String → String

/-- The points for some anchors, in groups of one level after another, under others. -/
def points : List Level → List String → List String → List (List String)
  | [], above, ts => ts.map fun a => above ++ [code a]
  | l :: ls, above, ts => (groupBy l.key ts).flatMap fun g =>
      (above ++ [l.shown g.1]) :: points ls (above ++ [l.shown g.1]) g.2

/-- The headings of the groups that an anchor is in. -/
def headings (ls : List Level) (anchor : String) : List String :=
  ls.map fun l => l.shown (l.key anchor)

section

variable {ls : List Level} {above ts : List String}

theorem prefix_of_mem_points {p : List String} (h : p ∈ points ls above ts) :
    above <+: p ∧ above.length < p.length := by
  induction ls generalizing above ts with
  | nil =>
    obtain ⟨a, -, rfl⟩ := List.mem_map.mp h
    exact ⟨List.prefix_append above _, by simp⟩
  | cons l ls ih =>
    obtain ⟨g, -, hp⟩ := List.mem_flatMap.mp h
    rcases List.mem_cons.mp hp with rfl | hp
    · exact ⟨List.prefix_append above _, by simp⟩
    · obtain ⟨hbelow, hlength⟩ := ih hp
      rw [List.length_append, List.length_singleton] at hlength
      exact ⟨(List.prefix_append above _).trans hbelow, by omega⟩

/-- The deepest points are the anchors, each under the headings of its groups. -/
theorem filter_deep_points (ls : List Level) (above ts : List String) :
    (points ls above ts).filter (above.length + ls.length < ·.length) =
      (arranged (ls.map Level.key) ts).map fun a => above ++ headings ls a ++ [code a] := by
  induction ls generalizing above ts with
  | nil =>
    rw [points, List.filter_eq_self.mpr]
    · simp [arranged, headings]
    · intro p hp
      obtain ⟨a, -, rfl⟩ := List.mem_map.mp hp
      simp
  | cons l ls ih =>
    rw [points, List.filter_flatMap, List.map_cons, arranged, List.map_flatMap]
    refine List.flatMap_congr fun g hg => ?_
    have hdepth :
        above.length + (l :: ls).length = (above ++ [l.shown g.1]).length + ls.length := by
      simp only [List.length_append, List.length_cons, List.length_nil]
      omega
    rw [List.filter_cons_of_neg (by simp), hdepth, ih]
    refine List.map_congr_left fun a ha => ?_
    have hkey := ((mem_of_mem_groupBy hg).mp ((perm_arranged _ g.2).mem_iff.mp ha)).2
    rw [headings, headings, List.map_cons, hkey, List.append_assoc above, List.singleton_append]

/-- No heading stands over nothing. -/
theorem exists_anchor_of_mem_points {h : List String} (hh : h ∈ points ls above ts)
    (hl : h.length ≤ above.length + ls.length) : ∃ a ∈ ts, h <+: above ++ headings ls a := by
  induction ls generalizing above ts with
  | nil =>
    have hlength := (prefix_of_mem_points hh).2
    rw [List.length_nil] at hl
    omega
  | cons l ls ih =>
    obtain ⟨g, hg, hh⟩ := List.mem_flatMap.mp hh
    have hunder {a : String} (ha : a ∈ g.2) :
        above ++ headings (l :: ls) a = above ++ [l.shown g.1] ++ headings ls a := by
      rw [headings, List.map_cons, ((mem_of_mem_groupBy hg).mp ha).2, List.append_assoc]
      rfl
    rcases List.mem_cons.mp hh with rfl | hh
    · obtain ⟨a, ha⟩ := exists_mem_of_mem_groupBy hg
      refine ⟨a, ((mem_of_mem_groupBy hg).mp ha).1, ?_⟩
      rw [hunder ha]
      exact List.prefix_append _ _
    · have hdepth : h.length ≤ (above ++ [l.shown g.1]).length + ls.length := by
        simp only [List.length_append, List.length_cons, List.length_nil] at hl ⊢
        omega
      obtain ⟨a, ha, hbelow⟩ := ih hh hdepth
      rw [← hunder ha] at hbelow
      exact ⟨a, ((mem_of_mem_groupBy hg).mp ha).1, hbelow⟩

variable (above ts) in
/-- No heading stands twice under the same ones, where different names are shown differently. -/
theorem nodup_headings (hshown : ∀ l ∈ ls, Function.Injective l.shown) :
    ((points ls above ts).filter (·.length ≤ above.length + ls.length)).Nodup := by
  induction ls generalizing above ts with
  | nil =>
    rw [List.filter_eq_nil_iff.mpr]
    · exact List.nodup_nil
    · intro p hp
      have hlength := (prefix_of_mem_points hp).2
      simp only [List.length_nil, Nat.add_zero, decide_eq_true_eq]
      omega
  | cons l ls ih =>
    rw [List.forall_mem_cons] at hshown
    have hdepth (g : String × List String) :
        above.length + (l :: ls).length = (above ++ [l.shown g.1]).length + ls.length := by
      simp only [List.length_append, List.length_cons, List.length_nil]
      omega
    have hunder {g : String × List String} {p : List String}
        (hp : p ∈ (above ++ [l.shown g.1]) :: points ls (above ++ [l.shown g.1]) g.2) :
        above ++ [l.shown g.1] <+: p := by
      rcases List.mem_cons.mp hp with rfl | hp
      · exact List.prefix_rfl
      · exact (prefix_of_mem_points hp).1
    rw [points, List.filter_flatMap, List.nodup_flatMap]
    constructor
    · intro g _
      rw [List.filter_cons_of_pos (by simp), List.nodup_cons, hdepth g]
      refine ⟨fun hmem => ?_, ih _ _ hshown.2⟩
      exact absurd (prefix_of_mem_points (List.mem_of_mem_filter hmem)).2 (lt_irrefl _)
    · refine (pairwise_keys_groupBy l.key ts).imp fun {g g'} hlt p hp hp' => ?_
      have hbelow := hunder (List.mem_of_mem_filter hp)
      have hbelow' := hunder (List.mem_of_mem_filter hp')
      have hsame : above ++ [l.shown g.1] = above ++ [l.shown g'.1] :=
        (List.prefix_of_prefix_length_le hbelow hbelow' (by simp)).eq_of_length (by simp)
      have hnames : l.shown g.1 = l.shown g'.1 := by simpa using hsame
      exact absurd (hshown.1 hnames) (ne_of_lt hlt)

end

def bold (s : String) : String := "**" ++ s ++ "**"

def italic (s : String) : String := "*" ++ s ++ "*"

/-- Domains, components and element kinds. -/
def levels : List Level := [⟨part 1, bold⟩, ⟨part 2, italic⟩, ⟨part 3, id⟩]

theorem levels_injective : ∀ l ∈ levels, Function.Injective l.shown := by
  simp only [levels, List.forall_mem_cons]
  refine ⟨fun s t h => ?_, fun s t h => ?_, Function.injective_id, fun l hl => by cases hl⟩
  · simpa [bold, ← String.toList_inj] using h
  · simpa [italic, ← String.toList_inj] using h

/-- The lines of some groups are read as the points of their anchors. -/
theorem reads_groupLines (anchors : List String) :
    Reads [] (groupLines (grouped anchors)) (points levels [] (Text.sorted anchors)) := by
  unfold groupLines grouped levels
  rw [List.flatMap_map]
  refine .flatMap fun domain _ => .under (by simp [point?, pointFrom, bold, ← String.toList_inj]) ?_
  rw [List.flatMap_map]
  refine .flatMap fun component _ =>
    .under (by simp [point?, pointFrom, italic, ← String.toList_inj]) ?_
  refine .flatMap fun element _ => .under (by simp [point?, pointFrom]) ?_
  rw [points, List.map_eq_flatMap, List.map_eq_flatMap]
  exact .flatMap fun a _ => .under (by simp [point?, pointFrom]) (.nil _)

/-- The point that stands for anchors where there are none. -/
def noAnchors : List String := ["(no anchors found)"]

theorem grouped_eq_nil_iff {anchors : List String} : grouped anchors = [] ↔ anchors = [] := by
  rw [grouped, List.map_eq_nil_iff]
  constructor
  · intro hnone
    have hperm := perm_flatMap_groupBy (part 1) (Text.sorted anchors)
    rw [hnone] at hperm
    exact ((Text.perm_sorted anchors).symm.trans hperm.symm).eq_nil
  · rintro rfl
    simp [Text.sorted, groupBy, Text.sortedSet]

/-- The lines for a route's anchors, or the one that says that there are none. -/
def anchorLines (e : MapEntry) : List String :=
  if e.anchors = [] then ["- (no anchors found)"] else groupLines (grouped e.anchors)

theorem routeLines_eq (key : String) (e : MapEntry) :
    routeLines key e = [s!"## {key} ({e.path})"] ++
      (e.skipped.map fun reason => s!"> skipped: {reason}").toList ++ anchorLines e ++ [""] := by
  unfold routeLines anchorLines
  split
  · next hnone => rw [if_pos (grouped_eq_nil_iff.mp hnone)]
  · next hsome => rw [if_neg fun hempty => hsome (grouped_eq_nil_iff.mpr hempty)]

/-- The section of a route is read as the points of its anchors, or as the one for none. -/
theorem outline_routeLines (key : String) (e : MapEntry) :
    outline [] (routeLines key e) =
      if e.anchors = [] then [noAnchors] else points levels [] (Text.sorted e.anchors) := by
  have hskipped : Reads [] (e.skipped.map fun reason => s!"> skipped: {reason}").toList [] := by
    cases e.skipped with
    | none => exact .nil []
    | some reason => exact .plain (by simp [point?, pointFrom, toString]) []
  have hanchors : Reads [] (anchorLines e)
      (if e.anchors = [] then [noAnchors] else points levels [] (Text.sorted e.anchors)) := by
    unfold anchorLines
    by_cases hnone : e.anchors = []
    · rw [if_pos hnone, if_pos hnone]
      exact .under (by simp [point?, pointFrom]) (.nil _)
    · rw [if_neg hnone, if_neg hnone]
      exact reads_groupLines e.anchors
  have hhead : Reads [] [s!"## {key} ({e.path})"] [] :=
    .plain (by simp [point?, pointFrom, toString]) []
  have hend : Reads [] [""] [] := .plain rfl []
  have hall := ((hhead.append hskipped).append hanchors).append hend
  rw [List.nil_append, List.nil_append, List.append_nil] at hall
  rw [routeLines_eq]
  exact hall.outline_eq

/-- A text that breaks no line. -/
def OneLine (s : String) : Prop := '\n' ∉ s.toList

theorem OneLine.append {s t : String} (hs : OneLine s) (ht : OneLine t) : OneLine (s ++ t) := by
  unfold OneLine
  rw [String.toList_append, List.mem_append, not_or]
  exact ⟨hs, ht⟩

theorem OneLine.part {anchor : String} (h : OneLine anchor) (n : Nat) :
    OneLine (part n anchor) := by
  rw [TourMap.part, String.pieces, List.getElem?_map]
  cases hn : (Text.pieces '.' anchor.toList)[n]? with
  | none =>
    change '\n' ∉ "unknown".toList
    decide
  | some piece =>
    intro hc
    rw [Option.map_some, Option.getD_some, String.toList_ofList] at hc
    exact h (Text.mem_of_mem_pieces (List.mem_of_getElem? hn) hc)

theorem OneLine.code {s : String} (h : OneLine s) : OneLine (code s) := by
  simpa [OneLine, TourMap.code] using h

theorem oneLine_groupLines {anchors : List String} (h : ∀ a ∈ anchors, OneLine a) :
    ∀ line ∈ groupLines (grouped anchors), OneLine line := by
  have hname {ts : List String} (hts : ∀ t ∈ ts, OneLine t) {n : Nat} {g : String × List String}
      (hg : g ∈ groupBy (part n) ts) : OneLine g.1 ∧ ∀ t ∈ g.2, OneLine t := by
    obtain ⟨t, ht⟩ := exists_mem_of_mem_groupBy hg
    obtain ⟨ht, hkey⟩ := (mem_of_mem_groupBy hg).mp ht
    refine ⟨?_, fun t ht => hts t ((mem_of_mem_groupBy hg).mp ht).1⟩
    rw [← hkey]
    exact (hts t ht).part n
  have hplain (s : String) (hs : '\n' ∉ s.toList) : OneLine s := hs
  intro line hline
  rw [groupLines, grouped, List.flatMap_map] at hline
  obtain ⟨domain, hdomain, hline⟩ := List.mem_flatMap.mp hline
  obtain ⟨hdomain, hin⟩ := hname (fun t ht => h t (Text.mem_sorted.mp ht)) hdomain
  rcases List.mem_cons.mp hline with rfl | hline
  · exact ((hplain _ (by decide)).append hdomain).append (hplain _ (by decide))
  rw [List.flatMap_map] at hline
  obtain ⟨component, hcomponent, hline⟩ := List.mem_flatMap.mp hline
  obtain ⟨hcomponent, hin⟩ := hname hin hcomponent
  rcases List.mem_cons.mp hline with rfl | hline
  · exact ((hplain _ (by decide)).append hcomponent).append (hplain _ (by decide))
  obtain ⟨element, helement, hline⟩ := List.mem_flatMap.mp hline
  obtain ⟨helement, hin⟩ := hname hin helement
  rcases List.mem_cons.mp hline with rfl | hline
  · exact (hplain _ (by decide)).append helement
  obtain ⟨a, ha, rfl⟩ := List.mem_map.mp hline
  exact (hplain _ (by decide)).append (hin a ha).code

theorem oneLine_routeLines {key : String} {e : MapEntry} (hkey : OneLine key)
    (hpath : OneLine e.path) (hskipped : ∀ reason ∈ e.skipped, OneLine reason)
    (hanchors : ∀ a ∈ e.anchors, OneLine a) : ∀ line ∈ routeLines key e, OneLine line := by
  have hplain (s : String) (hs : '\n' ∉ s.toList) : OneLine s := hs
  have hbody : ∀ line ∈ anchorLines e, OneLine line := by
    unfold anchorLines
    by_cases hnone : e.anchors = []
    · rw [if_pos hnone, List.forall_mem_singleton]
      exact hplain _ (by decide)
    · rw [if_neg hnone]
      exact oneLine_groupLines hanchors
  simp only [routeLines_eq, List.forall_mem_append, List.forall_mem_singleton]
  refine ⟨⟨⟨?_, ?_⟩, hbody⟩, hplain _ (by decide)⟩
  · exact ((((hplain _ (by decide)).append hkey).append (hplain _ (by decide))).append hpath).append
      (hplain _ (by decide))
  · intro line hline
    rw [Option.mem_toList, Option.map_eq_some_iff] at hline
    obtain ⟨reason, hreason, rfl⟩ := hline
    exact (hplain _ (by decide)).append (hskipped reason hreason)

/-- All texts that go into a map's document. -/
def texts (m : TourMap) (title : String) : List String :=
  title :: m.generatedAt :: m.events ++
    m.routes.flatMap fun r => r.1 :: r.2.path :: r.2.skipped.toList ++ r.2.anchors

/-- The lines of a map's document. -/
def documentLines (m : TourMap) (title : String) : List String :=
  [s!"# {title}", "", s!"Generated: {m.generatedAt}", ""] ++
    m.routes.flatMap (fun r => routeLines r.1 r.2) ++
    ["## Events"] ++ m.events.map (fun e => "- " ++ code e) ++ [""]

/-- A document is split into its lines again if none of its texts breaks a line. -/
theorem pieces_document {m : TourMap} {title : String} (h : ∀ t ∈ m.texts title, OneLine t) :
    (m.document title).pieces '\n' = m.documentLines title := by
  simp only [texts, List.forall_mem_append, List.forall_mem_cons, List.forall_mem_flatMap] at h
  obtain ⟨⟨htitle, hdate, hevents⟩, hroutes⟩ := h
  have hplain (s : String) (hs : '\n' ∉ s.toList) : OneLine s := hs
  have hlines : ∀ line ∈ m.documentLines title, OneLine line := by
    simp only [documentLines, List.forall_mem_append, List.forall_mem_cons, List.forall_mem_flatMap,
      List.forall_mem_map]
    refine ⟨⟨⟨⟨⟨(hplain _ (by decide)).append htitle, hplain _ (by decide),
      (hplain _ (by decide)).append hdate, hplain _ (by decide), by simp⟩, fun r hr => ?_⟩,
      hplain _ (by decide), by simp⟩, fun e he => ?_⟩, hplain _ (by decide), by simp⟩
    · obtain ⟨⟨hkey, hpath, hskipped⟩, hanchors⟩ := hroutes r hr
      exact oneLine_routeLines hkey hpath (fun reason hr => hskipped reason (by simpa using hr))
        hanchors
    · exact (hplain _ (by decide)).append (hevents e he).code
  have hjoined : (m.document title).toList =
      ['\n'].intercalate ((m.documentLines title).map String.toList) := by
    rw [document, String.toList_intercalate]
    rfl
  rw [String.pieces, hjoined, Text.pieces_intercalate (by simp [documentLines])
    (List.forall_mem_map.mpr hlines), List.map_map]
  exact (List.map_congr_left fun _ _ => String.ofList_toList).trans (List.map_id _)

/-- A document that none of its texts breaks has the sections of the routes, one after another, as
lines. In the section of a route the deepest points are its anchors, as often as the route has them
and in the order of their domains, components and element kinds, and each stands under the headings
of these; no heading stands twice under the same ones, and each has an anchor under it. -/
theorem document_lists (m : TourMap) (title : String) :
    ((∀ t ∈ m.texts title, OneLine t) → (m.document title).pieces '\n' = m.documentLines title) ∧
    ∀ r ∈ m.routes,
      let points := outline [] (routeLines r.1 r.2)
      (∃ as : List String, as.Perm r.2.anchors ∧ as.Pairwise (Precedes [part 1, part 2, part 3]) ∧
        points.filter (3 < ·.length) =
          as.map fun a => [bold (part 1 a), italic (part 2 a), part 3 a, code a]) ∧
      (points.filter (·.length ≤ 3)).Nodup ∧
      ∀ h ∈ points, h.length ≤ 3 →
        (∃ a ∈ r.2.anchors, h <+: [bold (part 1 a), italic (part 2 a), part 3 a]) ∨
          (r.2.anchors = [] ∧ h = noAnchors) := by
  refine ⟨pieces_document, ?_⟩
  rintro ⟨key, e⟩ -
  dsimp only
  rw [outline_routeLines]
  by_cases hnone : e.anchors = []
  · rw [if_pos hnone]
    refine ⟨⟨[], by rw [hnone], List.Pairwise.nil, rfl⟩, by decide, fun h hh _ => .inr ⟨hnone, ?_⟩⟩
    exact List.mem_singleton.mp hh
  · rw [if_neg hnone]
    refine ⟨⟨arranged (levels.map Level.key) (Text.sorted e.anchors), ?_, ?_, ?_⟩, ?_, ?_⟩
    · exact (perm_arranged _ _).trans (Text.perm_sorted _)
    · exact pairwise_arranged _ (Text.pairwise_sorted _)
    · exact filter_deep_points levels [] (Text.sorted e.anchors)
    · exact nodup_headings [] _ levels_injective
    · intro h hh hlength
      obtain ⟨a, ha, hbelow⟩ := exists_anchor_of_mem_points hh hlength
      exact .inl ⟨a, Text.mem_sorted.mp ha, hbelow⟩

theorem document_lists_repeated :
    let e : MapEntry :=
      ⟨"/studio", ["tour.studio.form.btn.go", "x", "tour.studio.form.btn.go"], none⟩
    let m : TourMap := ⟨"2026-01-01", [("studio", e)], ["tour.event.saved"]⟩
    (∀ t ∈ m.texts usualTitle, OneLine t) ∧ ("studio", e) ∈ m.routes ∧
      (m.document usualTitle).pieces '\n' = m.documentLines usualTitle ∧
      ∃ as : List String, as.Perm e.anchors ∧ as.Pairwise (Precedes [part 1, part 2, part 3]) ∧
        (outline [] (routeLines "studio" e)).filter (3 < ·.length) =
          as.map fun a => [bold (part 1 a), italic (part 2 a), part 3 a, code a] := by
  intro e m
  have htexts : ∀ t ∈ m.texts usualTitle, OneLine t := by unfold OneLine; decide +kernel
  have hroute : ("studio", e) ∈ m.routes := List.mem_singleton_self _
  have hlists := document_lists m usualTitle
  exact ⟨htexts, hroute, hlists.1 htexts, (hlists.2 ("studio", e) hroute).1⟩

end Walkthrough.TourMap
