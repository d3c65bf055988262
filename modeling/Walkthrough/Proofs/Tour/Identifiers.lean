import Walkthrough.Compile
import Walkthrough.Layout
import Walkthrough.Proofs.Guide.Documented
import Walkthrough.Proofs.Run.Selectors
import Walkthrough.Proofs.Run.Sequence
import Walkthrough.Proofs.Tour.Id
/-!
The identifiers of a tour: its id, and the anchors, events, screenshots and variables that its steps
name. What a pattern describes is a text as a whole, but where texts are checked, the end of a
pattern lets one line feed pass, and with it the names that are made of an identifier.
-/

namespace Walkthrough

namespace Pattern

/-- What a pattern describes, from the first character of a text to the last. -/
def whole : Pattern → List Char → Bool
  | rooted => fun s => s.head? == some '/'
  | tourId => isTourId
  | anchor => isAnchor
  | event => isEvent
  | envName => isVariable
  | shotName => isShotName

/-- A text passes for what a pattern describes, or for that and a line feed. -/
theorem admits_iff {p : Pattern} {s : String} (hp : p ≠ rooted) :
    p.admits s = true ↔ ∃ t, (s = t ∨ s = t ++ "\n") ∧ p.whole t.toList = true := by
  have hadmits : p.admits s = upToLineFeed p.whole s.toList := by
    cases p with
    | rooted => exact absurd rfl hp
    | tourId | anchor | event | envName | shotName => rfl
  rw [hadmits, upToLineFeed_iff]
  constructor
  · rintro (h | ⟨t, hs, h⟩)
    · exact ⟨s, .inl rfl, h⟩
    · refine ⟨String.ofList t, .inr ?_, by rwa [String.toList_ofList]⟩
      apply String.toList_injective
      rw [hs, String.toList_append, String.toList_ofList]
      rfl
  · rintro ⟨t, rfl | rfl, h⟩
    · exact .inl h
    · exact .inr ⟨t.toList, String.toList_append, h⟩

/-- Every character of a text that a pattern describes is a letter, a digit, or one of `._-`. -/
theorem isNameChar_of_whole {p : Pattern} (hp : p ≠ rooted) {s : List Char}
    (h : p.whole s = true) {c : Char} (hc : c ∈ s) : isNameChar c = true := by
  cases p with
  | rooted => exact absurd rfl hp
  | tourId => exact isNameChar_of_isTourId h hc
  | anchor => exact isNameChar_of_isAnchor h hc
  | event => exact isNameChar_of_isEvent h hc
  | envName => exact isNameChar_of_isVariable h hc
  | shotName => exact (allOf_iff.mp h).2 c hc

theorem not_mem_of_whole {p : Pattern} (hp : p ≠ rooted) {s : List Char}
    (h : p.whole s = true) : '\n' ∉ s := by
  intro hc
  cases isNameChar_of_whole hp h hc

end Pattern

/-- A text of a tour that is to have a form. -/
structure Identifier where
  pattern : Pattern
  text : String
  deriving DecidableEq, Repr

namespace Identifier

/-- An identifier is what its pattern describes, with nothing before or behind it. -/
def IsClean (i : Identifier) : Prop := i.pattern.whole i.text.toList = true

instance (i : Identifier) : Decidable i.IsClean :=
  inferInstanceAs (Decidable (i.pattern.whole i.text.toList = true))

/-- An identifier is such as a document may state. -/
structure IsAdmitted (i : Identifier) : Prop where
  named : i.pattern ≠ .rooted
  admits : i.pattern.admits i.text = true

namespace IsAdmitted

variable {i : Identifier} (h : i.IsAdmitted)

include h

/-- Up to one line feed at its end, an identifier is clean and has the characters of names only. -/
theorem exists_clean : ∃ s : String, (i.text = s ∨ i.text = s ++ "\n") ∧
    Identifier.IsClean ⟨i.pattern, s⟩ ∧ ∀ c ∈ s.toList, isNameChar c = true := by
  obtain ⟨s, hs, hwhole⟩ := (Pattern.admits_iff h.named).mp h.admits
  exact ⟨s, hs, hwhole, fun c hc => Pattern.isNameChar_of_whole h.named hwhole hc⟩

theorem isClean_iff : i.IsClean ↔ '\n' ∉ i.text.toList := by
  constructor
  · intro hclean
    exact Pattern.not_mem_of_whole h.named hclean
  · intro hfeed
    obtain ⟨s, rfl | hs, hclean, -⟩ := h.exists_clean
    · exact hclean
    · rw [hs, String.toList_append] at hfeed
      exact absurd (List.mem_append_right s.toList (List.mem_singleton_self '\n')) hfeed

end IsAdmitted

end Identifier

/-- What a step names. -/
def Step.identifiers (s : Step) : List Identifier :=
  match s.action with
  | .click _ anchor _ => [⟨.anchor, anchor⟩]
  | .fill _ anchor _ envName _ =>
    ⟨.anchor, anchor⟩ :: envName.toList.map fun name => ⟨.envName, name⟩
  | .waitForEvent _ event _ => [⟨.event, event⟩]
  | .expectVisible _ anchor _ => [⟨.anchor, anchor⟩]
  | .screenshot name _ _ => [⟨.shotName, name⟩]
  | .narration _ | .goto _ | .waitMs _ | .annotate .. => []

/-- A tour's id and what its steps name. -/
def Tour.identifiers (t : Tour) : List Identifier :=
  ⟨.tourId, t.id⟩ :: t.steps.flatMap Step.identifiers

theorem Step.mem_identifiers_of_anchor? {s : Step} {a : String} (h : a ∈ s.action.anchor?) :
    ⟨.anchor, a⟩ ∈ s.identifiers := by
  obtain ⟨action, extras⟩ := s
  cases action with
  | click label anchor timeout | fill label anchor value envName timeout
  | expectVisible label anchor timeout =>
    cases h
    exact List.mem_cons_self
  | narration | goto | waitForEvent | waitMs | screenshot | annotate => cases h

theorem Step.isAdmitted_of_mem {s : Step} (hs : s.action.WellFormed) {i : Identifier}
    (hi : i ∈ s.identifiers) : i.IsAdmitted := by
  obtain ⟨action, extras⟩ := s
  cases action with
  | click label anchor timeout =>
    rw [List.mem_singleton.mp hi]
    exact ⟨by simp, hs.1⟩
  | fill label anchor value envName timeout =>
    obtain ⟨hanchor, -, hname, -⟩ := hs
    obtain rfl | hi := List.mem_cons.mp hi
    · exact ⟨by simp, hanchor⟩
    · obtain ⟨name, hn, rfl⟩ := List.mem_map.mp hi
      exact ⟨by simp, hname name (Option.mem_toList.mp hn)⟩
  | waitForEvent label event timeout =>
    rw [List.mem_singleton.mp hi]
    exact ⟨by simp, hs.1⟩
  | expectVisible label anchor timeout =>
    rw [List.mem_singleton.mp hi]
    exact ⟨by simp, hs.1⟩
  | screenshot name label fullPage =>
    rw [List.mem_singleton.mp hi]
    exact ⟨by simp, hs⟩
  | narration | goto | waitMs | annotate => cases hi

namespace Tour

variable {v : Json} {t : Tour}

theorem isAdmitted_of_mem (ht : Tour.ofJson v = .ok t) {i : Identifier}
    (hi : i ∈ t.identifiers) : i.IsAdmitted := by
  obtain ⟨hid, hsteps⟩ := spec_of_ofJson ht
  obtain rfl | hi := List.mem_cons.mp hi
  · exact ⟨by simp, hid⟩
  · obtain ⟨s, hs, hi⟩ := List.mem_flatMap.mp hi
    exact Step.isAdmitted_of_mem (hsteps s hs).1 hi

theorem mem_identifiers_of_anchor? {s : Step} (hs : s ∈ t.steps) {a : String}
    (ha : a ∈ s.action.anchor?) : ⟨.anchor, a⟩ ∈ t.identifiers :=
  List.mem_cons_of_mem _ (List.mem_flatMap.mpr ⟨s, hs, Step.mem_identifiers_of_anchor? ha⟩)

/-- The part of a run's directory and of a tour's file name that comes from a tour is its id. -/
theorem paths_of_ofJson (ht : Tour.ofJson v = .ok t) (directory : Path) (stamp : String) :
    Layout.runDirectory directory t.id stamp =
        (⟨directory.root, directory.parts ++ [t.id]⟩ : Path) / stamp ∧
      Compile.destination directory t =
        ⟨directory.root, directory.parts ++ [t.id ++ ".tour.json"]⟩ := by
  have hid : Path.IsName t.id := isName_id ht
  have hfile : Path.IsName (t.id ++ ".tour.json") :=
    isName_of_admits_tourId (spec_of_ofJson ht).1 (by decide)
  constructor
  · rw [Layout.runDirectory, Path.join_name directory t.id hid.single]
  · exact Path.join_name directory (t.id ++ ".tour.json") hfile.single

/-- Each identifier of a tour that was read is clean exactly if it has no line feed, and is clean up
to one line feed at its end; an anchor that has none is one that guides can state. A run selects
elements by the tour's anchors as they stand, and its directory and the tour's file are named by the
tour's id as it stands, so that a line feed in one of them stands there too. -/
theorem identifiers_upToLineFeed {ι σ : Type} {p : Run.Player ι σ} {log : σ → List Called}
    (ht : Tour.ofJson v = .ok t) (hl : p.page.Logs log) (sc : Scene σ) :
    (∀ i ∈ t.identifiers, (i.IsClean ↔ '\n' ∉ i.text.toList) ∧
      ∃ s : String, (i.text = s ∨ i.text = s ++ "\n") ∧ Identifier.IsClean ⟨i.pattern, s⟩ ∧
        ∀ c ∈ s.toList, isNameChar c = true) ∧
    (∀ a : String, ⟨.anchor, a⟩ ∈ t.identifiers →
      (Guide.Directive.anchorToEnd? (Guide.inBrackets a.toList) = some a.toList ↔
        '\n' ∉ a.toList)) ∧
    (∃ calls, log (p.run t sc).2.page = log sc.page ++ calls ∧
      ∀ c ∈ calls, c.call.SelectsBy fun a => ⟨.anchor, a⟩ ∈ t.identifiers) ∧
    ∀ (directory : Path) (stamp : String),
      Layout.runDirectory directory t.id stamp =
          (⟨directory.root, directory.parts ++ [t.id]⟩ : Path) / stamp ∧
        Compile.destination directory t =
          ⟨directory.root, directory.parts ++ [t.id ++ ".tour.json"]⟩ := by
  refine ⟨fun i hi => ?_, fun a ha => ?_, ?_, paths_of_ofJson ht⟩
  · have hadmitted : i.IsAdmitted := isAdmitted_of_mem ht hi
    exact ⟨hadmitted.isClean_iff, hadmitted.exists_clean⟩
  · rw [Guide.Directive.anchorToEnd?_inBrackets_iff]
    exact (isAdmitted_of_mem ht ha).isClean_iff
  · obtain ⟨calls, hleads, hcalls⟩ :=
      p.run_selectsBy (fun s hs a ha => mem_identifiers_of_anchor? hs ha) sc
    exact ⟨calls, hleads.log hl, hcalls⟩

/-- A line feed passes behind each kind of identifier, and comes with the selectors of the run and
with the names of its directory and of the tour's file. -/
theorem identifiers_upToLineFeed_everywhere :
    let v : Json := .obj [("tourId", .str "demo\n"), ("steps", .arr [
      .obj [("type", .str "click"), ("anchor", .str "tour.nav.save\n")],
      .obj [("type", .str "fill"), ("anchor", .str "tour.nav.name\n"), ("valueEnv", .str "NAME\n")],
      .obj [("type", .str "waitForEvent"), ("name", .str "tour.event.saved\n")],
      .obj [("type", .str "expectVisible"), ("anchor", .str "tour.nav.done\n")],
      .obj [("type", .str "screenshot"), ("name", .str "done\n")]])]
    let t : Tour := ⟨"demo\n", none, [
      ⟨.click "" "tour.nav.save\n" none, {}⟩,
      ⟨.fill "" "tour.nav.name\n" none (some "NAME\n") none, {}⟩,
      ⟨.waitForEvent "" "tour.event.saved\n" defaultTimeout, {}⟩,
      ⟨.expectVisible "" "tour.nav.done\n" defaultTimeout, {}⟩,
      ⟨.screenshot "done\n" none none, {}⟩]⟩
    let refuse (_ : PageCall) : Option Fault := none
    let p : Run.Player Int (List Called) := ⟨.refusing refuse 0, .exact,
      { baseUrl := "http://app.test", routes := [], directory := "run", date := "2026-01-01" }⟩
    let sc : Scene (List Called) := { page := [] }
    let log (calls : List Called) : List Called := calls
    Tour.ofJson v = .ok t ∧ p.page.Logs log ∧ t.identifiers.length = 7 ∧
      (∀ i ∈ t.identifiers, ¬i.IsClean) ∧
      (∀ c ∈ (p.run t sc).2.page, c.call.SelectsBy fun a => ⟨.anchor, a⟩ ∈ t.identifiers) ∧
      "[data-tour=\"tour.nav.save\n\"]" ∈ (p.run t sc).2.page.filterMap (·.call.selector?) ∧
      Layout.runDirectory "runs" t.id "1" = ⟨"", ["runs", "demo\n", "1"]⟩ ∧
      Compile.destination "tours" t = ⟨"", ["tours", "demo\n.tour.json"]⟩ := by
  intro v t refuse p sc log
  have ht : Tour.ofJson v = .ok t := ok_of_toOption (by decide +kernel)
  have hl : p.page.Logs log := Page.refusing_logs refuse 0
  obtain ⟨hclean, -, ⟨calls, hcalls, hselect⟩, hpaths⟩ := identifiers_upToLineFeed ht hl sc
  rw [show calls = (p.run t sc).2.page from hcalls.symm] at hselect
  have hfeeds : ∀ i ∈ t.identifiers, '\n' ∈ i.text.toList := by decide +kernel
  refine ⟨ht, hl, rfl, fun i hi h => ?_, hselect, by decide +kernel, ?_, ?_⟩
  · exact (hclean i hi).1.mp h (hfeeds i hi)
  · rw [(hpaths "runs" "1").1]
    rfl
  · exact (hpaths "tours" "1").2

end Tour

end Walkthrough
