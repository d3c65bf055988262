import Walkthrough.Proofs.Compile.RoundTrip
import Walkthrough.Proofs.Guide.Format
/-!
The final check of a compilation: what it can find wrong with the document of a compiled guide.
-/

namespace Walkthrough.Compile

/-- Steps that come from lines have the format, but for anchors to expect that are not spelled as
anchors are. -/
theorem accepts_iff_of_lines {t : Tour} (h : ∀ s ∈ t.steps, ∃ l, Guide.parseLine l = .ok s) :
    Tour.format.accepts t.toJson = true ↔
      Pattern.tourId.admits t.id = true ∧ ∀ s ∈ t.steps, s.action.Spelled := by
  rw [Tour.accepts_toJson_iff]
  refine and_congr_right fun _ => forall₂_congr fun s hs => ?_
  obtain ⟨l, hl⟩ := h s hs
  rw [Step.accepts_toJson_iff, Guide.parseLine_wellFormed_iff hl]

theorem accepts_iff_of_draft {st : Store} {s : Setting} {tourId source text : String} {t : Tour}
    (h : draft st s tourId source text = .ok t) :
    Tour.format.accepts t.toJson = true ↔
      Pattern.tourId.admits tourId = true ∧ ∀ x ∈ t.steps, x.action.Spelled := by
  obtain ⟨steps, hp, ht⟩ := bind_eq_ok.mp h
  cases ht
  rw [Tour.accepts_toJson_iff]
  refine and_congr_right fun _ => forall₂_congr fun x hx => ?_
  rw [Step.accepts_toJson_iff]
  rcases mem_withIntro hx with rfl | hx
  · exact iff_of_true ⟨trivial, by simp, by simp, by simp⟩ (by simp [ActionOf.Spelled])
  · obtain ⟨l, hl⟩ := Guide.parse_ok hp x hx
    exact Guide.parseLine_wellFormed_iff hl

/-- The grammar of guides against the format of tours. The document of a line's step has the format
exactly if an anchor to expect, which is read in letters of any case, is spelled as anchors are.
So the final check of a guide finds nothing but such an anchor or the tour's id. -/
theorem format_iff_spelled (l : Guide.Line) (s : Step) (t : Tour) (st : Store)
    (setting : Setting) (tourId source text : String) :
    (Guide.parseLine l = .ok s →
      (Tour.stepFormat.accepts s.toJson = true ↔ s.action.Spelled)) ∧
    ((∀ x ∈ t.steps, ∃ l, Guide.parseLine l = .ok x) →
      (Tour.format.accepts t.toJson = true ↔
        Pattern.tourId.admits t.id = true ∧ ∀ x ∈ t.steps, x.action.Spelled)) ∧
    (draft st setting tourId source text = .ok t →
      (Tour.format.complaint? t.toJson = none ↔
        Pattern.tourId.admits tourId = true ∧ ∀ x ∈ t.steps, x.action.Spelled)) := by
  refine ⟨fun h => ?_, fun h => accepts_iff_of_lines h, fun h => ?_⟩
  · rw [Step.accepts_toJson_iff, Guide.parseLine_wellFormed_iff h]
  · rw [Schema.complaint?_eq_none_iff, accepts_iff_of_draft h]

theorem format_iff_spelled_panel :
    let l : Guide.Line := ⟨"guide", 1, "Expect visible Panel (TOUR.home.panel)"⟩
    let s : Step := ⟨.expectVisible "Panel" "TOUR.home.panel" 10000, {}⟩
    let t : Tour := ⟨"demo", none, [⟨.narration "Hi", {}⟩, s]⟩
    let setting : Setting := ⟨⟨[], [], "auth"⟩, none, none, []⟩
    Guide.parseLine l = .ok s ∧ Tour.stepFormat.accepts s.toJson = false ∧
      (∀ x ∈ t.steps, ∃ l, Guide.parseLine l = .ok x) ∧ Tour.format.accepts t.toJson = false ∧
      draft Store.empty setting "demo" "guide" ("Say: Hi\n" ++ l.text) = .ok t ∧
      Pattern.tourId.admits "demo" = true ∧ Tour.format.complaint? t.toJson ≠ none := by
  intro l s t setting
  have hl : Guide.parseLine l = .ok s := ok_of_toOption (by decide +kernel)
  have hn : Guide.parseLine ⟨"guide", 1, "Say: Hi"⟩ = .ok ⟨.narration "Hi", {}⟩ :=
    ok_of_toOption (by decide +kernel)
  have hd : draft Store.empty setting "demo" "guide" ("Say: Hi\n" ++ l.text) = .ok t :=
    ok_of_toOption (by decide +kernel)
  have hs : ¬ s.action.Spelled := fun h => absurd (h _ _ _ rfl) (by decide +kernel)
  have hsteps : ∀ x ∈ t.steps, ∃ l, Guide.parseLine l = .ok x := by
    simp only [t, List.forall_mem_cons]
    exact ⟨⟨_, hn⟩, ⟨l, hl⟩, by simp⟩
  have hlast : ¬ ∀ x ∈ t.steps, x.action.Spelled := fun h => hs (h s (by simp [t]))
  obtain ⟨hline, htour, hdraft⟩ :=
    format_iff_spelled l s t Store.empty setting "demo" "guide" ("Say: Hi\n" ++ l.text)
  refine ⟨hl, ?_, hsteps, ?_, hd, by decide +kernel, fun hc => ?_⟩
  · rw [← Bool.not_eq_true, hline hl]
    exact hs
  · rw [← Bool.not_eq_true, htour hsteps]
    exact fun h => hlast h.2
  · exact hlast ((hdraft hd).mp hc).2

end Walkthrough.Compile
