import Walkthrough.Proofs.Tour.Acceptance
/-!
The format of tours against the documents of tours: a document of the format is read as a tour, and
a tour's own document has the format if the parts of its steps are such as a document may state.
-/

namespace Walkthrough

namespace Step

theorem get?_label (s : Step) : s.toJson.get? "label" = s.action.label?.map .str := by
  obtain ⟨a, x⟩ := s
  cases a <;>
    simp [toJson, get?_action, cue, ActionOf.map, Cue.actionMembers, ActionOf.label?,
      List.lookup_cons, filter_str, filter_map_str, -Option.filter_filter]

theorem mem_keys_toJson {s : Step} {ms : Json.Members} (h : s.toJson = .obj ms)
    {m : String × Json} (hm : m ∈ ms) :
    m.1 = "type" ∨ m.1 ∈ (Cue.actionMembers s.cue.action).map (·.1) ∨
      m.1 ∈ Tour.commonMembers.map (·.1) := by
  cases h
  rcases List.mem_cons.mp hm with rfl | hm
  · exact Or.inl rfl
  · have hk := (keys_present_sublist s.cue.members).subset (List.mem_map_of_mem hm)
    rw [Cue.members, List.map_append, List.mem_append] at hk
    refine Or.inr (hk.imp_right fun hx => ?_)
    have hs : (Cue.extraMembers s.cue.extras).map (·.1) ⊆ Tour.commonMembers.map (·.1) := by
      simp [Cue.extraMembers, Tour.commonMembers]
    exact hs hx

theorem str_injective : Function.Injective Json.str := fun _ _ => Json.str.inj

theorem num_injective : Function.Injective Json.num := fun _ _ => Json.num.inj

/-- The members that every step may have are such as the format asks for. -/
theorem accepts_common (s : Step) :
    (∀ p ∈ Tour.commonMembers, (s.toJson.get? p.1).all p.2.accepts = true) ↔
      s.extras.WellFormed := by
  obtain ⟨hp, hn, hc, hm⟩ := Cue.get?_extras s.cue
  have hp' : s.toJson.get? "preDelayMs" = s.extras.preDelay.map .num :=
    hp.trans (filter_map_num s.extras.preDelay)
  have hn' : s.toJson.get? "narration" = s.extras.narration.map .str :=
    hn.trans (filter_map_str s.extras.narration)
  have hc' : s.toJson.get? "capture" =
      s.extras.capture.map fun c => Cue.captureJson (Tour.captureCue c) := by
    rw [toJson, hc, cue, Option.map_map]
    rfl
  have hm' : s.toJson.get? "annotate" =
      s.extras.markup.map fun m => Cue.markupJson (Tour.markupCue m) := by
    rw [toJson, hm, cue, Option.map_map]
    rfl
  have hcap : (s.toJson.get? "capture").all Tour.captureFormat.accepts = true ↔
      ∀ c ∈ s.extras.capture, c.name ≠ "" := by
    rw [hc']
    cases s.extras.capture <;> simp [Tour.accepts_captureJson]
  have hmark : (s.toJson.get? "annotate").all Tour.markupFormat.accepts = true ↔
      ∀ m ∈ s.extras.markup, m.instructions ≠ "" := by
    rw [hm']
    cases s.extras.markup <;> simp [Tour.accepts_markupJson]
  simp only [Tour.commonMembers, List.forall_mem_cons, hcap, hmark, get?_label, hp', hn',
    Tour.timeFormat_takes.all_map num_injective, Tour.textFormat_takes.all_map str_injective]
  simp [ExtrasOf.WellFormed]

/-- A step's document against the format of a kind that has all the members of the step's action. -/
theorem accepts_stepRules_toJson {s : Step} {kind : Rule} {required : List String}
    {own : List (String × Schema)} (more : List Rule)
    (hk : kind.holds (.str s.cue.action.kind) = true)
    (hm : ∀ key ∈ (Cue.actionMembers s.cue.action).map (·.1),
      key ∈ (Tour.commonMembers ++ own).map (·.1)) :
    (Schema.rules (Tour.stepRules kind required own ++ more)).accepts s.toJson = true ↔
      ((∀ key ∈ required, (s.toJson.get? key).isSome = true) ∧
        (∀ p ∈ own, (s.toJson.get? p.1).all p.2.accepts = true) ∧
        ∀ r ∈ more, r.holds s.toJson = true) ∧ s.extras.WellFormed := by
  rw [← accepts_common]
  obtain ⟨ms, hms⟩ : ∃ ms, s.toJson = .obj ms := ⟨_, rfl⟩
  have ht : s.toJson.get? "type" = some (.str s.cue.action.kind) := rfl
  have hn : ∀ m ∈ ms, m.1 = "type" ∨ m.1 ∈ (Tour.commonMembers ++ own).map (·.1) := by
    intro m hin
    rcases mem_keys_toJson hms hin with h | h | h
    · exact Or.inl h
    · exact Or.inr (hm _ h)
    · rw [List.map_append]
      exact Or.inr (List.mem_append_left _ h)
  rw [hms] at ht ⊢
  rw [Tour.accepts_stepRules]
  constructor
  · rintro ⟨⟨-, hr, hf, -⟩, hmore⟩
    rw [List.forall_mem_append] at hf
    exact ⟨⟨hr, hf.2, hmore⟩, hf.1⟩
  · rintro ⟨⟨hr, ho, hmore⟩, hc⟩
    exact ⟨⟨⟨_, ht, hk⟩, hr, List.forall_mem_append.mpr ⟨hc, ho⟩, hn⟩, hmore⟩

theorem get?_own (a : Action) (x : Extras) {key : String}
    (hk : key ∉ ["type", "preDelayMs", "narration", "capture", "annotate"]) :
    (toJson ⟨a, x⟩).get? key =
      ((Cue.actionMembers (a.map .str .bool .num)).lookup key).join.filter (· != .null) :=
  get?_action _ hk

theorem accepts_of_mem {s : Step} (kind : Rule) (required : List String)
    (own : List (String × Schema)) (more : List Rule)
    (hb : Schema.rules (Tour.stepRules kind required own ++ more) ∈ Tour.stepFormats)
    (hk : kind.holds (.str s.cue.action.kind) = true)
    (hm : ∀ key ∈ (Cue.actionMembers s.cue.action).map (·.1),
      key ∈ (Tour.commonMembers ++ own).map (·.1))
    (h : (∀ key ∈ required, (s.toJson.get? key).isSome = true) ∧
      (∀ p ∈ own, (s.toJson.get? p.1).all p.2.accepts = true) ∧
      ∀ r ∈ more, r.holds s.toJson = true)
    (hx : s.extras.WellFormed) : Tour.stepFormat.accepts s.toJson = true :=
  (Tour.stepFormat_accepts_iff _).mpr
    ⟨_, hb, (accepts_stepRules_toJson more hk hm).mpr ⟨h, hx⟩⟩

theorem accepts_text (t : String) : Tour.textFormat.accepts (.str t) = true :=
  (Tour.textFormat_takes _).mpr ⟨t, rfl, trivial⟩

theorem accepts_fullText {t : String} (h : t ≠ "") :
    Tour.fullTextFormat.accepts (.str t) = true :=
  (Tour.fullTextFormat_takes _).mpr ⟨t, rfl, h⟩

theorem accepts_form {p : Pattern} {t : String} (h : p.admits t = true) :
    (Tour.formFormat p).accepts (.str t) = true :=
  (Tour.formFormat_takes p _).mpr ⟨t, rfl, h⟩

theorem accepts_time {n : Int} (h : 0 ≤ n) : Tour.timeFormat.accepts (.int n) = true :=
  (Tour.timeFormat_takes _).mpr ⟨.int n, rfl, rfl, by simpa [Number.ltInt] using h⟩

theorem accepts_times {o : Option Number} (h : ∀ n ∈ o, n.IsTime) :
    (o.map Json.num).all Tour.timeFormat.accepts = true :=
  (Tour.timeFormat_takes.all_map num_injective o).mpr h

/-- A fill states one of a text and a variable, so one branch of its choice is met. -/
theorem holds_oneOf_fill {l a : String} {v e : Option String} {t : Option Number} {x : Extras}
    (h : v.isSome = true ↔ e = none) :
    (Rule.oneOf [.rules [.required ["value"]], .rules [.required ["valueEnv"]]]).holds
      (toJson ⟨.fill l a v e t, x⟩) = true := by
  have hv : (toJson ⟨.fill l a v e t, x⟩).get? "value" = v.map .str := by
    simp [get?_own, ActionOf.map, Cue.actionMembers, List.lookup_cons, filter_map_str,
      -Option.filter_filter]
  have he : (toJson ⟨.fill l a v e t, x⟩).get? "valueEnv" = e.map .str := by
    simp [get?_own, ActionOf.map, Cue.actionMembers, List.lookup_cons, filter_map_str,
      -Option.filter_filter]
  obtain ⟨ms, hms⟩ : ∃ ms, toJson ⟨.fill l a v e t, x⟩ = .obj ms := ⟨_, rfl⟩
  rw [hms] at hv he ⊢
  have hv' : Json.Members.get? ms "value" = v.map .str := hv
  have he' : Json.Members.get? ms "valueEnv" = e.map .str := he
  cases v <;> cases e <;> simp_all [Rule.holds, Schema.accepts_rules]

/-- The document of a well-formed step has the format of its kind. -/
theorem accepts_of_wellFormed {s : Step} (h : s.WellFormed) :
    Tour.stepFormat.accepts s.toJson = true := by
  obtain ⟨a, x⟩ := s
  obtain ⟨ha, hx⟩ := h
  cases a with
  | narration m =>
    refine accepts_of_mem (.oneAmong ["narration", "say"]) []
      [("message", Tour.textFormat), ("text", Tour.textFormat)] [] (by simp [Tour.stepFormats]) rfl
      ?_ ?_ hx
    · simp [Cue.actionMembers, cue, ActionOf.map]
    · simp [get?_own, ActionOf.map, Cue.actionMembers, List.lookup_cons, accepts_text]
  | goto k =>
    refine accepts_of_mem (.const "goto") ["routeKey"] [("routeKey", Tour.fullTextFormat)] []
      (by simp [Tour.stepFormats]) rfl ?_ ?_ hx
    · simp [Cue.actionMembers, cue, ActionOf.map]
    · simp [get?_own, ActionOf.map, Cue.actionMembers, accepts_fullText ha]
  | click l a t =>
    refine accepts_of_mem (.const "click") ["anchor"]
      [("anchor", Tour.formFormat .anchor), ("timeoutMs", Tour.timeFormat)] []
      (by simp [Tour.stepFormats]) rfl ?_ ?_ hx
    · simp [Cue.actionMembers, cue, ActionOf.map, Tour.commonMembers]
    · simp [get?_own, ActionOf.map, Cue.actionMembers, List.lookup_cons, accepts_form ha.1,
        filter_map_num, accepts_times ha.2, -Option.filter_filter]
  | fill l a v e t =>
    obtain ⟨haf, hone, hef, ht⟩ := ha
    refine accepts_of_mem (.const "fill") ["anchor"]
      [("anchor", Tour.formFormat .anchor), ("value", Tour.textFormat),
        ("valueEnv", Tour.formFormat .envName), ("timeoutMs", Tour.timeFormat)]
      [.oneOf [.rules [.required ["value"]], .rules [.required ["valueEnv"]]]]
      (by simp [Tour.stepFormats]) rfl ?_ ?_ hx
    · simp [Cue.actionMembers, cue, ActionOf.map, Tour.commonMembers]
    · have hv : (v.map Json.str).all Tour.textFormat.accepts = true :=
        (Tour.textFormat_takes.all_map str_injective v).mpr fun _ _ => trivial
      have he : (e.map Json.str).all (Tour.formFormat .envName).accepts = true :=
        ((Tour.formFormat_takes .envName).all_map str_injective e).mpr hef
      simp [get?_own, ActionOf.map, Cue.actionMembers, List.lookup_cons, accepts_form haf,
        filter_map_num, filter_map_str, accepts_times ht, hv, he, holds_oneOf_fill hone,
        -Option.filter_filter]
  | waitForEvent l e t =>
    refine accepts_of_mem (.const "waitForEvent") ["name"]
      [("name", Tour.formFormat .event), ("timeoutMs", Tour.timeFormat)] []
      (by simp [Tour.stepFormats]) rfl ?_ ?_ hx
    · simp [Cue.actionMembers, cue, ActionOf.map, Tour.commonMembers]
    · simp [get?_own, ActionOf.map, Cue.actionMembers, List.lookup_cons, accepts_form ha.1,
        accepts_time ha.2]
  | expectVisible l a t =>
    refine accepts_of_mem (.const "expectVisible") ["anchor"]
      [("anchor", Tour.formFormat .anchor), ("timeoutMs", Tour.timeFormat)] []
      (by simp [Tour.stepFormats]) rfl ?_ ?_ hx
    · simp [Cue.actionMembers, cue, ActionOf.map, Tour.commonMembers]
    · simp [get?_own, ActionOf.map, Cue.actionMembers, List.lookup_cons, accepts_form ha.1,
        accepts_time ha.2]
  | waitMs d =>
    refine accepts_of_mem (.const "waitMs") ["durationMs"]
      [("durationMs", .rules [.kind .integer, .minimum 1])] []
      (by simp [Tour.stepFormats]) rfl ?_ ?_ hx
    · simp [Cue.actionMembers, cue, ActionOf.map]
    · have h1 : (Number.int d).ltInt 1 = false := by simpa [Number.ltInt] using show 1 ≤ d from ha
      have hd : (Schema.rules [.kind .integer, .minimum 1]).accepts (.num (.int d)) = true :=
        (Tour.wholeFormat_takes 1 _).mpr ⟨.int d, rfl, rfl, h1⟩
      simp [get?_own, ActionOf.map, Cue.actionMembers, Json.int, hd]
  | screenshot n l f =>
    refine accepts_of_mem (.oneAmong ["screenshot", "snapshot"]) ["name"]
      [("name", Tour.formFormat .shotName), ("fullPage", .rules [.kind .boolean])] []
      (by simp [Tour.stepFormats]) rfl ?_ ?_ hx
    · simp [Cue.actionMembers, cue, ActionOf.map, Tour.commonMembers]
    · have hf : (f.map Json.bool).all (Schema.rules [.kind .boolean]).accepts = true :=
        (Tour.flagFormat_takes.all_map (fun _ _ => Json.bool.inj) f).mpr fun _ _ => trivial
      simp [get?_own, ActionOf.map, Cue.actionMembers, List.lookup_cons, accepts_form ha,
        filter_map_bool, hf, -Option.filter_filter]
  | annotate l i t =>
    refine accepts_of_mem (.const "annotate") ["instructions"]
      [("instructions", Tour.fullTextFormat), ("targetScreenshot", Tour.textFormat)] []
      (by simp [Tour.stepFormats])
      rfl ?_ ?_ hx
    · simp [Cue.actionMembers, cue, ActionOf.map, Tour.commonMembers]
    · have ht : (t.map Json.str).all Tour.textFormat.accepts = true :=
        (Tour.textFormat_takes.all_map str_injective t).mpr fun _ _ => trivial
      simp [get?_own, ActionOf.map, Cue.actionMembers, List.lookup_cons, accepts_fullText ha,
        filter_map_str, ht, -Option.filter_filter]

/-- A step's document has the format exactly if the step is well-formed. -/
theorem accepts_toJson_iff (s : Step) :
    Tour.stepFormat.accepts s.toJson = true ↔ s.WellFormed := by
  constructor
  · intro h
    obtain ⟨s', hs, hw⟩ := Tour.exists_step_of_accepts h
    rw [ofJson_toJson] at hs
    cases hs
    exact hw
  · exact accepts_of_wellFormed

end Step

namespace Tour

/-- A tour's document has the format exactly if its id has the form and every step's has its own. -/
theorem accepts_toJson_iff (t : Tour) :
    format.accepts t.toJson = true ↔
      Pattern.tourId.admits t.id = true ∧ ∀ s ∈ t.steps, stepFormat.accepts s.toJson = true := by
  obtain ⟨id, description, steps⟩ := t
  have hid : (formFormat .tourId).accepts (.str id) = true ↔ Pattern.tourId.admits id = true := by
    rw [formFormat_takes .tourId]
    simp
  have hsteps : (Schema.rules [.kind .array, .items stepFormat]).accepts
      (.arr (steps.map (·.toJson))) = true ↔ ∀ s ∈ steps, stepFormat.accepts s.toJson = true := by
    simp [Schema.accepts_rules, Rule.holds, JsonKind.admits]
  rw [format, Schema.accepts_rules]
  cases description with
  | none =>
    simp [toJson, Json.objOf, Rule.holds, JsonKind.admits, Json.Members.get?, List.lookup_cons, hid,
      hsteps]
  | some d =>
    simp [toJson, Json.objOf, Rule.holds, JsonKind.admits, Json.Members.get?, List.lookup_cons, hid,
      hsteps, Step.accepts_text]

theorem exists_tour_of_accepts {v : Json} (h : format.accepts v = true) :
    ∃ t, Tour.ofJson v = .ok t ∧ Pattern.tourId.admits t.id = true ∧
      ∀ s ∈ t.steps, s.WellFormed := by
  obtain ⟨ms, rfl, hr, hp⟩ := exists_of_accepts_object h
  simp only [List.forall_mem_cons] at hr hp
  obtain ⟨id, hid, hidf⟩ := (formFormat_takes .tourId).get?_of_isSome hr.1 hp.1
  obtain ⟨d, hd, -⟩ := textFormat_takes.get? hp.2.1
  obtain ⟨w, hw⟩ := Option.isSome_iff_exists.mp hr.2.1
  have hs := hp.2.2.1
  rw [hw, Option.all_some, Schema.accepts_rules] at hs
  have hc := (Schema.complaint?_eq_none_iff format (.obj ms)).mpr h
  cases w with
  | arr vs =>
    simp only [List.all_cons, Rule.holds, Bool.and_eq_true, List.all_eq_true] at hs
    obtain ⟨steps, hsteps, hwf⟩ := exists_mapM fun v hv => exists_step_of_accepts (hs.2.1 v hv)
    refine ⟨⟨id, d, steps⟩, ?_, hidf, hwf⟩
    rw [Tour.ofJson, hc]
    simp only [need_of_get? hid, ok_bind, Step.asText_str, optional_of_get? (by simp) hd,
      mapM_option_map Step.asText_str, hw, hsteps]
    rfl
  | _ => simp [Rule.holds, JsonKind.admits] at hs

/-- A document is refused for what it breaks of the format, or has the format and is a tour. -/
theorem ofJson_cases (v : Json) :
    (∃ c, format.complaint? v = some c ∧ Tour.ofJson v = .error (.format c)) ∨
      ∃ t, format.accepts v = true ∧ Tour.ofJson v = .ok t := by
  cases hc : format.complaint? v with
  | some c =>
    refine .inl ⟨c, rfl, ?_⟩
    rw [Tour.ofJson, hc]
  | none =>
    have ha := (Schema.complaint?_eq_none_iff format v).mp hc
    obtain ⟨t, ht, -⟩ := exists_tour_of_accepts ha
    exact .inr ⟨t, ha, ht⟩

/-- A tour that was read has an id of the form, and well-formed steps. -/
theorem spec_of_ofJson {v : Json} {t : Tour} (h : Tour.ofJson v = .ok t) :
    Pattern.tourId.admits t.id = true ∧ ∀ s ∈ t.steps, s.WellFormed := by
  obtain ⟨c, -, hc⟩ | ⟨_, ha, -⟩ := ofJson_cases v
  · rw [h] at hc
    cases hc
  · obtain ⟨t', ht, hid, hwf⟩ := exists_tour_of_accepts ha
    rw [h] at ht
    cases ht
    exact ⟨hid, hwf⟩

theorem wellFormed_of_ofJson {v : Json} {t : Tour} (h : Tour.ofJson v = .ok t) :
    ∀ s ∈ t.steps, s.WellFormed := (spec_of_ofJson h).2

/-- The id of a tour that was read is what its document gives. -/
theorem get?_tourId_of_ofJson {v : Json} {t : Tour} (h : Tour.ofJson v = .ok t) :
    v.get? "tourId" = some (.str t.id) := by
  unfold Tour.ofJson at h
  split at h
  · cases h
  · obtain ⟨w, hw, h⟩ := bind_eq_ok.mp h
    obtain ⟨id, hid, h⟩ := bind_eq_ok.mp h
    obtain ⟨d, -, h⟩ := bind_eq_ok.mp h
    have ht : t.id = id := by
      dsimp only at h
      split at h
      · obtain ⟨steps, -, h⟩ := bind_eq_ok.mp h
        cases h
        rfl
      · cases h
        rfl
    have hget : v.get? "tourId" = some w := by
      cases v with
      | obj ms =>
        unfold Cue.need at hw
        dsimp only at hw
        change Json.Members.get? ms "tourId" = some w
        rcases hm : Json.Members.get? ms "tourId" with _ | w'
        · rw [hm] at hw
          cases hw
        · rw [hm] at hw
          cases hw
          rfl
      | _ => cases hw
    rw [hget, ht]
    cases w with
    | str s =>
      cases hid
      rfl
    | _ => cases hid

/-- A document either is refused for what it breaks of the format or is read as a tour, whose own
document has the format and is read as the same tour. -/
theorem ofJson_total (v : Json) :
    (∃ c, format.complaint? v = some c ∧ Tour.ofJson v = .error (.format c)) ∨
      ∃ t, format.accepts v = true ∧ Tour.ofJson v = .ok t ∧ format.accepts t.toJson = true ∧
        Tour.ofJson t.toJson = .ok t := by
  obtain hc | ⟨t, ha, ht⟩ := ofJson_cases v
  · exact Or.inl hc
  · obtain ⟨hid, hwf⟩ := spec_of_ofJson ht
    have hta : format.accepts t.toJson = true :=
      (accepts_toJson_iff t).mpr ⟨hid, fun s hs => Step.accepts_of_wellFormed (hwf s hs)⟩
    have htc := (Schema.complaint?_eq_none_iff format t.toJson).mpr hta
    exact Or.inr ⟨t, ha, ht, hta, ofJson_toJson htc⟩

end Tour

end Walkthrough
