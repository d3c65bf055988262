import Walkthrough.Compile
import Walkthrough.Proofs.Files
import Walkthrough.Proofs.Guide.Steps
/-!
Compiled tours in their files: what is written for a tour is loaded as that tour.
-/

namespace Walkthrough.Compile

/-- A compiled tour is its guide's steps behind an opening narration, with every reference known
and a document of the format. -/
theorem text_ok {st : Store} {s : Setting} {tourId source text : String} {t : Tour}
    (h : Compile.text st s tourId source text = .ok t) :
    ∃ steps, Guide.parse st s.fragments source text = .ok steps ∧
      t = ⟨tourId, Guide.title? text, withIntro s.intros tourId steps⟩ ∧
      t.issues (Known.of s.vocabulary s.map) = [] ∧ Tour.format.complaint? t.toJson = none := by
  obtain ⟨t', hd, h⟩ := bind_eq_ok.mp h
  obtain ⟨_, hc, h⟩ := bind_eq_ok.mp h
  cases h
  obtain ⟨steps, hp, hd⟩ := bind_eq_ok.mp hd
  refine ⟨steps, hp, by cases hd; rfl, ?_⟩
  unfold check at hc
  split at hc
  · next hi =>
    split at hc
    · cases hc
    · next hf => exact ⟨hi, hf⟩
  · cases hc

theorem mem_withIntro {intros : Intros} {tourId : String} {steps : List Step} {s : Step}
    (h : s ∈ withIntro intros tourId steps) :
    s = ⟨.narration (intro intros tourId), {}⟩ ∨ s ∈ steps := by
  unfold withIntro at h
  split at h
  · exact Or.inr h
  · exact List.mem_cons.mp h

theorem readsBack_of_text_ok {st : Store} {s : Setting} {tourId source text : String} {t : Tour}
    (h : Compile.text st s tourId source text = .ok t) :
    ∀ x ∈ t.steps, ∀ n ∈ x.numbers, Json.ReadsBack n := by
  obtain ⟨steps, hp, rfl, -⟩ := text_ok h
  intro x hx n hn
  rcases mem_withIntro hx with rfl | hx
  · cases hn
  · obtain ⟨l, hl⟩ := Guide.parse_ok hp x hx
    exact Guide.parseLine_readsBack hl n hn

/-- A file that holds a tour's text is read as the tour's document, -/
theorem readJson_of_read {st : Store} {file : Path} {t : Tour}
    (hn : ∀ x ∈ t.steps, ∀ n ∈ x.numbers, Json.ReadsBack n)
    (h : st.read file = .ok (Text.Utf8.encode t.fileText.toList)) :
    readJson st file = .ok t.toJson := by
  rw [readJson, readText_of_read (Tour.not_mem_fileText hn) h, ok_bind, Tour.read_fileText hn]
  rfl

/-- and loaded as the tour, if the document has the format. -/
theorem load_of_read {st : Store} {file : Path} {t : Tour}
    (hn : ∀ x ∈ t.steps, ∀ n ∈ x.numbers, Json.ReadsBack n)
    (hf : Tour.format.complaint? t.toJson = none)
    (h : st.read file = .ok (Text.Utf8.encode t.fileText.toList)) : Tour.load st file = .ok t := by
  rw [Tour.load, readJson_of_read hn h, ok_bind, Tour.ofJson_toJson hf]

/-- What compiling makes of a guide is loaded again from the file it is written to. -/
theorem load_write {st st₁ st₂ : Store} {s : Setting} {tourId source text : String} {t : Tour}
    {directory : Path} (hc : Compile.text st s tourId source text = .ok t)
    (hw : Compile.write directory t st₁ = (.ok (), st₂)) :
    Tour.load st₂ (destination directory t) = .ok t := by
  have hn := readsBack_of_text_ok hc
  obtain ⟨_, -, -, -, hf⟩ := text_ok hc
  exact load_of_read hn hf (Filing.writeText_read hw)

theorem load_write_logIn :
    let s : Setting := ⟨⟨[⟨"home", "/"⟩], [], "auth"⟩, none, none, []⟩
    let text := "# Log in\nGoto routeKey: home | predelay:250\n" ++
      "Fill name (tour.login.form.name) value:\"A\\\" | narration:\"Who?\""
    let t : Tour := ⟨"log-in", some "Log in",
      [⟨.narration "In this walkthrough we'll go through log in step by step.", {}⟩,
        ⟨.goto "home", { preDelay := some (.int 250) }⟩,
        ⟨.fill "name" "tour.login.form.name" (some "\"A\\\"") none none,
          { narration := some "Who?" }⟩]⟩
    Compile.text Store.empty s "log-in" "guide" text = .ok t ∧
      ∃ st, Compile.write "tours" t Store.empty = (.ok (), st) ∧
        Tour.load st (destination "tours" t) = .ok t := by
  intro s text t
  have hc : Compile.text Store.empty s "log-in" "guide" text = .ok t :=
    ok_of_toOption (by decide +kernel)
  have hw : (Compile.write "tours" t Store.empty).1 = .ok () := ok_of_toOption (by decide +kernel)
  exact ⟨hc, _, Prod.ext hw rfl, load_write hc (Prod.ext hw rfl)⟩

end Walkthrough.Compile
