import Walkthrough.Proofs.Except
import Walkthrough.Proofs.Json.RoundTrip
import Walkthrough.Tour.Reader
import Walkthrough.Tour.Writer
/-!
Tours read back from their documents: no member is lost and none is taken for another.
-/

namespace Walkthrough

theorem present_cons (k : String) (o : Option Json) (ms : List (String × Option Json)) :
    present ((k, o) :: ms) = ((o.filter (· != .null)).map (k, ·)).toList ++ present ms := by
  cases o with
  | none => rfl
  | some v => cases v <;> rfl

theorem mem_present {ms : List (String × Option Json)} {m : String × Json} :
    m ∈ present ms → (m.1, some m.2) ∈ ms := by
  intro h
  obtain ⟨⟨k, o⟩, hk, he⟩ := List.mem_filterMap.mp h
  cases o with
  | none => cases he
  | some v =>
    cases v <;> cases he <;> exact hk

theorem keys_present_sublist (ms : List (String × Option Json)) :
    List.Sublist ((present ms).map (·.1)) (ms.map (·.1)) := by
  induction ms with
  | nil => exact List.Sublist.slnil
  | cons m ms ih =>
    obtain ⟨k, o⟩ := m
    rw [present_cons]
    cases o.filter (· != .null) with
    | none => exact ih.cons k
    | some v => exact ih.cons_cons k

theorem lookup_eq_none {β : Type} {key : String} {ms : List (String × β)}
    (h : key ∉ ms.map (·.1)) : ms.lookup key = none := by
  rw [List.lookup_eq_none_iff]
  intro p hp
  have hne : key ≠ p.1 := fun e => h (e ▸ List.mem_map.mpr ⟨p, hp, rfl⟩)
  simpa using hne

/-- The member of a key is the one that was given for it, unless that is null. -/
theorem get?_present {ms : List (String × Option Json)} (h : (ms.map (·.1)).Nodup) (key : String) :
    Json.Members.get? (present ms) key = (ms.lookup key).join.filter (· != .null) := by
  induction ms with
  | nil => rfl
  | cons m ms ih =>
    obtain ⟨k, o⟩ := m
    rw [List.map_cons, List.nodup_cons] at h
    have ih := ih h.2
    rw [Json.Members.get?] at ih
    rw [Json.Members.get?, present_cons]
    by_cases hk : key = k
    · subst hk
      rw [lookup_eq_none h.1] at ih
      simp only [List.lookup_cons, beq_self_eq_true, Option.join_some]
      cases o.filter (· != .null) with
      | none => exact ih
      | some v => simp
    · have hb : (key == k) = false := by simpa using hk
      simp only [List.lookup_cons, hb]
      cases o.filter (· != .null) with
      | none => exact ih
      | some v => simpa [List.lookup_cons, hb] using ih

namespace Cue

/-- The members of a step, with those that are absent. -/
def members (c : Cue) : List (String × Option Json) :=
  actionMembers c.action ++ extraMembers c.extras

theorem keys_nodup (c : Cue) :
    (("type", some (.str c.action.kind)) :: c.members |>.map (·.1)).Nodup := by
  obtain ⟨a, x⟩ := c
  cases a <;> simp [members, actionMembers, extraMembers]

theorem get?_toJson (c : Cue) (key : String) :
    c.toJson.get? key =
      ((("type", some (.str c.action.kind)) :: c.members).lookup key).join.filter (· != .null) := by
  have h := get?_present c.keys_nodup key
  rw [present_cons] at h
  exact h

/-- What a step may carry besides its action. -/
theorem get?_extras (c : Cue) :
    c.toJson.get? "preDelayMs" = c.extras.preDelay.filter (· != .null) ∧
    c.toJson.get? "narration" = c.extras.narration.filter (· != .null) ∧
    c.toJson.get? "capture" = c.extras.capture.map captureJson ∧
    c.toJson.get? "annotate" = c.extras.markup.map markupJson := by
  obtain ⟨a, x⟩ := c
  have hn {α : Type} (f : α → List (String × Json)) (o : Option α) :
      (o.map fun y => Json.obj (f y)).filter (· != .null) = o.map fun y => Json.obj (f y) := by
    cases o <;> rfl
  simp only [get?_toJson]
  refine ⟨?_, ?_, ?_, ?_⟩
  · cases a <;> simp [members, actionMembers, extraMembers, List.lookup_cons]
  · cases a <;> simp [members, actionMembers, extraMembers, List.lookup_cons]
  · cases a <;> simp [members, actionMembers, extraMembers, List.lookup_cons] <;> exact hn _ _
  · cases a <;> simp [members, actionMembers, extraMembers, List.lookup_cons] <;> exact hn _ _

end Cue

/-- No part of the cue of a tour's step is null. -/
theorem filter_map {α : Type} {f : α → Json} (h : ∀ x, f x ≠ .null) (o : Option α) :
    (o.map f).filter (· != .null) = o.map f := by
  cases o with
  | none => rfl
  | some x => simp [h x]

/-- The numbers that an action states. -/
def ActionOf.numbers {τ φ : Type} : ActionOf τ φ Number → List Number
  | .click _ _ t => t.toList
  | .fill _ _ _ _ t => t.toList
  | .waitForEvent _ _ t => [.int t]
  | .expectVisible _ _ t => [.int t]
  | .waitMs d => [.int d]
  | _ => []

/-- The numbers that a step states. -/
def Step.numbers (s : Step) : List Number := s.action.numbers ++ s.extras.preDelay.toList

namespace Step

theorem readCapture_captureJson (c : Capture) :
    let d : CaptureOf Json Json Json := ⟨.str c.moment.word, .str c.name, c.fullPage.map .bool⟩
    Cue.readCapture (Cue.captureJson d) = .ok d := by
  obtain ⟨m, n, f⟩ := c
  cases f <;> rfl

theorem readMarkup_markupJson (m : Markup) :
    let d : MarkupOf Json := ⟨.str m.instructions, m.target.map .str⟩
    Cue.readMarkup (Cue.markupJson d) = .ok d := by
  obtain ⟨i, t⟩ := m
  cases t <;> rfl

theorem readExtras_toJson (s : Step) : Cue.readExtras s.cue.toJson = .ok s.cue.extras := by
  obtain ⟨hp, hn, hc, hm⟩ := Cue.get?_extras s.cue
  have hc' : Cue.ifFull Cue.readCapture s.cue.toJson "capture" = .ok s.cue.extras.capture := by
    rw [Cue.ifFull, hc]
    cases hx : s.extras.capture with
    | none => simp only [cue, hx]; rfl
    | some c =>
      simp only [cue, hx, Option.map_some]
      change (some <$> Cue.readCapture _) = _
      rw [readCapture_captureJson c]
      rfl
  have hm' : Cue.ifFull Cue.readMarkup s.cue.toJson "annotate" = .ok s.cue.extras.markup := by
    rw [Cue.ifFull, hm]
    cases hx : s.extras.markup with
    | none => simp only [cue, hx]; rfl
    | some m =>
      simp only [cue, hx, Option.map_some]
      change (some <$> Cue.readMarkup _) = _
      rw [readMarkup_markupJson m]
      rfl
  have hp' : Cue.optional s.cue.toJson "preDelayMs" = s.cue.extras.preDelay := by
    rw [Cue.optional, hp, Option.filter_filter]
    simp only [Bool.and_self]
    exact filter_map (by simp) _
  have hn' : Cue.optional s.cue.toJson "narration" = s.cue.extras.narration := by
    rw [Cue.optional, hn, Option.filter_filter]
    simp only [Bool.and_self]
    exact filter_map (by simp) _
  simp only [Cue.readExtras, hc', hm', hp', hn', bind, Except.bind, pure, Except.pure]

/-- The members of the action are under keys of their own. -/
theorem get?_action (c : Cue) {key : String}
    (hk : key ∉ ["type", "preDelayMs", "narration", "capture", "annotate"]) :
    c.toJson.get? key = ((Cue.actionMembers c.action).lookup key).join.filter (· != .null) := by
  simp only [List.mem_cons, List.not_mem_nil, or_false, not_or] at hk
  obtain ⟨h1, h2, h3, h4, h5⟩ := hk
  have he : (Cue.extraMembers c.extras).lookup key = none :=
    lookup_eq_none (by simp [Cue.extraMembers, h2, h3, h4, h5])
  have ht : (key == "type") = false := by simpa using h1
  rw [Cue.get?_toJson, List.lookup_cons, ht, Cue.members, List.lookup_append, he, Option.or_none]

theorem need_toJson (c : Cue) (key : String) :
    Cue.need c.toJson key =
      match c.toJson.get? key with
      | some v => .ok v
      | none => .error (.step (.missing key)) := rfl

theorem whole_int (n : Int) : Cue.whole (.num (.int n)) = .ok n := rfl

theorem filter_str (s : String) : (some (Json.str s)).filter (· != .null) = some (.str s) := rfl

theorem filter_map_str (o : Option String) : (o.map Json.str).filter (· != .null) = o.map .str :=
  filter_map (by simp) o

theorem filter_map_num (o : Option Number) : (o.map Json.num).filter (· != .null) = o.map .num :=
  filter_map (by simp) o

theorem filter_map_bool (o : Option Bool) : (o.map Json.bool).filter (· != .null) = o.map .bool :=
  filter_map (by simp) o

/-- The action is read out of the document of its step. -/
theorem readAction_toJson (s : Step) :
    Cue.readAction s.cue.action.kind s.cue.toJson = .ok s.cue.action := by
  obtain ⟨a, x⟩ := s
  cases a with
  | narration m =>
    by_cases he : m = "" <;>
      simp [cue, Cue.readAction, ActionOf.map, ActionOf.kind, Cue.message, Cue.orEmpty, get?_action,
        Cue.actionMembers, List.lookup_cons, Option.filter, Json.isTruthy, he, pure, Except.pure]
  | goto k =>
    simp [cue, Cue.readAction, ActionOf.map, ActionOf.kind, need_toJson, get?_action,
      Cue.actionMembers, Option.filter, pure, Except.pure, bind, Except.bind]
  | click l a t =>
    simp [cue, Cue.readAction, ActionOf.map, ActionOf.kind, need_toJson, Cue.orEmpty, Cue.optional,
      get?_action, Cue.actionMembers, List.lookup_cons, filter_str, filter_map_num,
      pure, Except.pure, bind, Except.bind, -Option.filter_filter]
  | fill l a v e t =>
    simp [cue, Cue.readAction, ActionOf.map, ActionOf.kind, need_toJson, Cue.orEmpty, Cue.optional,
      get?_action, Cue.actionMembers, List.lookup_cons, filter_str, filter_map_num, filter_map_str,
      pure, Except.pure, bind, Except.bind, -Option.filter_filter]
  | waitForEvent l e t =>
    simp [cue, Cue.readAction, ActionOf.map, ActionOf.kind, need_toJson, Cue.orEmpty, Cue.timeout,
      get?_action, Cue.actionMembers, List.lookup_cons, whole_int, Json.int, Option.filter,
      pure, Except.pure, bind, Except.bind]
  | expectVisible l e t =>
    simp [cue, Cue.readAction, ActionOf.map, ActionOf.kind, need_toJson, Cue.orEmpty, Cue.timeout,
      get?_action, Cue.actionMembers, List.lookup_cons, whole_int, Json.int, Option.filter,
      pure, Except.pure, bind, Except.bind]
  | waitMs d =>
    simp [cue, Cue.readAction, ActionOf.map, ActionOf.kind, need_toJson, get?_action,
      Cue.actionMembers, whole_int, Json.int, Option.filter, pure, Except.pure, bind, Except.bind]
  | screenshot n l f =>
    simp [cue, Cue.readAction, ActionOf.map, ActionOf.kind, need_toJson, Cue.optional, get?_action,
      Cue.actionMembers, List.lookup_cons, filter_str, filter_map_str, filter_map_bool,
      pure, Except.pure, bind, Except.bind, -Option.filter_filter]
  | annotate l i t =>
    simp [cue, Cue.readAction, ActionOf.map, ActionOf.kind, need_toJson, Cue.orEmpty, Cue.optional,
      get?_action, Cue.actionMembers, List.lookup_cons, filter_str, filter_map_str,
      pure, Except.pure, bind, Except.bind, -Option.filter_filter]

theorem cue_ofJson_toJson (s : Step) : Cue.ofJson s.toJson = .ok s.cue := by
  have ht : Cue.need s.cue.toJson "type" = .ok (.str s.cue.action.kind) := rfl
  have hk : Cue.kindWords (.str s.cue.action.kind) = .ok s.cue.action.kind := rfl
  simp only [toJson, Cue.ofJson, ht, readExtras_toJson, hk, readAction_toJson, bind, Except.bind,
    pure, Except.pure]

theorem asMoment_word (m : Moment) : Cue.asMoment (.str m.word) = .ok m := by
  cases m <;> rfl

theorem asText_str (s : String) : Cue.asText (.str s) = .ok s := rfl

theorem asFlag_bool (b : Bool) : Cue.asFlag (.bool b) = .ok b := rfl

theorem asTime_num (n : Number) : Cue.asTime (.num n) = .ok n := rfl

theorem mapM_action (a : Action) :
    (a.map Json.str Json.bool Json.num).mapM Cue.asText Cue.asFlag Cue.asTime = .ok a := by
  cases a <;>
    simp [ActionOf.map, ActionOf.mapM, asText_str, mapM_option_map asText_str,
      mapM_option_map asFlag_bool, mapM_option_map asTime_num, bind, Except.bind, pure, Except.pure]

theorem stepExtras_cue (s : Step) : Cue.stepExtras s.cue.extras = .ok s.extras := by
  obtain ⟨a, p, n, c, m⟩ := s
  have hc : (c.map fun c : Capture =>
        (⟨.str c.moment.word, .str c.name, c.fullPage.map .bool⟩ :
          CaptureOf Json Json Json)).mapM
      (fun c => do return (⟨← Cue.asMoment c.moment, ← Cue.asText c.name,
        ← c.fullPage.mapM Cue.asFlag⟩ : Capture)) = Except.ok (ε := Fault) c := by
    apply mapM_option_map
    intro c
    simp [asMoment_word, asText_str, mapM_option_map asFlag_bool, bind, Except.bind, pure,
      Except.pure]
  have hm : (m.map fun m : Markup =>
        (⟨.str m.instructions, m.target.map .str⟩ : MarkupOf Json)).mapM
      (fun m => do return (⟨← Cue.asText m.instructions, ← m.target.mapM Cue.asText⟩ : Markup)) =
        Except.ok (ε := Fault) m := by
    apply mapM_option_map
    intro m
    simp [asText_str, mapM_option_map asText_str, bind, Except.bind, pure, Except.pure]
  simp only [cue, Cue.stepExtras, hc, hm, mapM_option_map asText_str, mapM_option_map asTime_num,
    ok_bind]
  rfl

theorem step_cue (s : Step) : s.cue.step = .ok s := by
  have hx := stepExtras_cue s
  simp only [Cue.step, cue] at hx ⊢
  simp only [mapM_action, hx, ok_bind]
  rfl

/-- A step is read out of its document. -/
theorem ofJson_toJson (s : Step) : Step.ofJson s.toJson = .ok s := by
  rw [Step.ofJson, cue_ofJson_toJson, ok_bind, step_cue]

theorem plain_captureJson {room : Nat} (c : Capture) :
    (Cue.captureJson ⟨.str c.moment.word, .str c.name, c.fullPage.map .bool⟩).Plain (room + 1) := by
  obtain ⟨m, n, f⟩ := c
  cases f <;> simp [Cue.captureJson, present, Json.Plain, Json.PlainMembers]

theorem plain_markupJson {room : Nat} (m : Markup) :
    (Cue.markupJson ⟨.str m.instructions, m.target.map .str⟩).Plain (room + 1) := by
  obtain ⟨i, t⟩ := m
  cases t <;> simp [Cue.markupJson, present, Json.Plain, Json.PlainMembers]

theorem plain_of_mem_map {α : Type} {room : Nat} {f : α → Json} {o : Option α}
    (h : ∀ x ∈ o, (f x).Plain room) : ∀ v ∈ o.map f, v.Plain room := by
  intro v hv
  obtain ⟨x, hx, rfl⟩ := Option.map_eq_some_iff.mp hv
  exact h x hx

/-- Every member of a step is plain if its numbers read back. -/
theorem plain_of_mem_members {room : Nat} {s : Step} (h : ∀ n ∈ s.numbers, Json.ReadsBack n) :
    ∀ m ∈ s.cue.members, ∀ v ∈ m.2, v.Plain (room + 1) := by
  have hs (o : Option String) : ∀ v ∈ o.map Json.str, v.Plain (room + 1) :=
    plain_of_mem_map fun t _ => Json.plain_str t
  have hb (o : Option Bool) : ∀ v ∈ o.map Json.bool, v.Plain (room + 1) :=
    plain_of_mem_map fun b _ => Json.plain_bool b
  have hn {o : Option Number} (ho : ∀ n ∈ o, Json.ReadsBack n) :
      ∀ v ∈ o.map Json.num, v.Plain (room + 1) :=
    plain_of_mem_map fun n hn => Json.plain_num.mpr (ho n hn)
  obtain ⟨a, p, t, c, k⟩ := s
  simp only [numbers, List.mem_append, Option.mem_toList, or_imp, forall_and] at h
  obtain ⟨ha, hp⟩ := h
  have hx : ∀ m ∈ Cue.extraMembers (cue ⟨a, p, t, c, k⟩).extras,
      ∀ v ∈ m.2, v.Plain (room + 1) := by
    simp only [Cue.extraMembers, cue, List.forall_mem_cons, Option.map_map]
    refine ⟨hn hp, hs t, ?_, ?_, by simp⟩
    · exact plain_of_mem_map fun c _ => plain_captureJson c
    · exact plain_of_mem_map fun m _ => plain_markupJson m
  simp only [Cue.members, cue, List.forall_mem_append]
  refine ⟨?_, hx⟩
  cases a with
  | narration m => simp [ActionOf.map, Cue.actionMembers]
  | goto k => simp [ActionOf.map, Cue.actionMembers]
  | click l a t =>
    have ht : ∀ n ∈ t, Json.ReadsBack n := by simpa [ActionOf.numbers] using ha
    simpa [ActionOf.map, Cue.actionMembers] using ht
  | fill l a v e t =>
    have ht : ∀ n ∈ t, Json.ReadsBack n := by simpa [ActionOf.numbers] using ha
    simpa [ActionOf.map, Cue.actionMembers] using ht
  | waitForEvent l e t =>
    simpa [ActionOf.map, Cue.actionMembers, Json.int, ActionOf.numbers] using ha
  | expectVisible l a t =>
    simpa [ActionOf.map, Cue.actionMembers, Json.int, ActionOf.numbers] using ha
  | waitMs d => simpa [ActionOf.map, Cue.actionMembers, Json.int, ActionOf.numbers] using ha
  | screenshot n l f =>
    simp only [ActionOf.map, Cue.actionMembers, List.forall_mem_cons]
    exact ⟨hs l, by simp, hb f, by simp⟩
  | annotate l i t => simp [ActionOf.map, Cue.actionMembers]

theorem plain_toJson {room : Nat} {s : Step} (h : ∀ n ∈ s.numbers, Json.ReadsBack n) :
    s.toJson.Plain (room + 2) := by
  have hk := Cue.keys_nodup s.cue
  have hs := (keys_present_sublist s.cue.members).cons_cons "type"
  refine ⟨hk.sublist hs, Json.plain_str _, Json.plainMembers_iff.mpr fun m hm => ?_⟩
  exact plain_of_mem_members h _ (mem_present hm) _ rfl

end Step

namespace Tour

/-- A tour is read out of its document, if that has the format of tours. -/
theorem ofJson_toJson {t : Tour} (h : format.complaint? t.toJson = none) :
    Tour.ofJson t.toJson = .ok t := by
  obtain ⟨id, description, steps⟩ := t
  have hs : ((steps.map (·.toJson)).mapM Step.ofJson : Except Fault (List Step)) = .ok steps :=
    mapM_list_map Step.ofJson_toJson steps
  rw [Tour.ofJson, h]
  cases description with
  | none =>
    simp [toJson, Json.objOf, Cue.need, Cue.optional, Json.get?, Json.Members.get?,
      List.lookup_cons, hs, ok_bind, Step.asText_str]
  | some d =>
    simp [toJson, Json.objOf, Cue.need, Cue.optional, Json.get?, Json.Members.get?,
      List.lookup_cons, hs, ok_bind, Step.asText_str]
    rfl

theorem plain_toJson {room : Nat} {t : Tour}
    (h : ∀ s ∈ t.steps, ∀ n ∈ s.numbers, Json.ReadsBack n) : t.toJson.Plain (room + 4) := by
  have hs : Json.PlainItems (room + 2) (t.steps.map (·.toJson)) :=
    Json.plainItems_iff.mpr fun v hv => by
      obtain ⟨s, hm, rfl⟩ := List.mem_map.mp hv
      exact Step.plain_toJson (h s hm)
  obtain ⟨id, description, steps⟩ := t
  cases description with
  | none => exact ⟨by simp, Json.plain_str _, hs, trivial⟩
  | some d => exact ⟨by simp, Json.plain_str _, Json.plain_str _, hs, trivial⟩

/-- What a tour's file says is the tour's document. -/
theorem read_fileText {t : Tour} (h : ∀ s ∈ t.steps, ∀ n ∈ s.numbers, Json.ReadsBack n) :
    Json.read t.fileText = .ok t.toJson := Json.read_pretty (plain_toJson h)

theorem not_mem_fileText {t : Tour} (h : ∀ s ∈ t.steps, ∀ n ∈ s.numbers, Json.ReadsBack n) :
    '\r' ∉ t.fileText.toList := by
  have hp : t.toJson.Plain Json.roomAlways := plain_toJson h
  exact Json.not_mem_pretty hp

end Tour

end Walkthrough
