import Mathlib.Tactic.Linarith
import Walkthrough.Proofs.Schema
import Walkthrough.Proofs.Tour.RoundTrip
/-!
The format of steps: what it asks for, kind by kind, and that whatever has it is read as a step.
-/

namespace Walkthrough

theorem Binary64.signed_mul (s : Bool) (m n : Nat) : signed s (m * n) = signed s m * n := by
  cases s <;> simp [signed]

/-- Cutting a whole number loses nothing, so what it is not below its whole part is not below. -/
theorem Binary64.truncate?_of_isWhole {x : Binary64} {k : Int} (hw : x.isWhole = true)
    (hk : x.ltInt k = false) : ∃ n, x.truncate? = some n ∧ k ≤ n := by
  cases x with
  | nan => cases hw
  | infinity s => cases hw
  | finite s m e =>
    refine ⟨_, rfl, ?_⟩
    by_cases he : 0 ≤ e
    · simp only [ltInt, he, if_true, decide_eq_false_iff_not, not_lt] at hk
      simpa [he, signed_mul] using hk
    · have hm : m % pow2 (-e).toNat = 0 := by simpa [isWhole, he] using hw
      have hp : 0 < pow2 (-e).toNat := Nat.two_pow_pos _
      simp only [ltInt, he, if_false, decide_eq_false_iff_not, not_lt] at hk ⊢
      obtain ⟨q, rfl⟩ := Nat.dvd_of_mod_eq_zero hm
      rw [Nat.mul_div_cancel_left q hp]
      rw [Nat.mul_comm, signed_mul] at hk
      exact le_of_mul_le_mul_right hk (Int.natCast_pos.mpr hp)

namespace Number

/-- A time that a document may state: a whole number, and not a negative one. -/
def IsTime (n : Number) : Prop := n.isWhole = true ∧ n.ltInt 0 = false

theorem truncate_of_isWhole {n : Number} {k : Int} (hw : n.isWhole = true)
    (hk : n.ltInt k = false) : ∃ i, n.truncate = .ok i ∧ k ≤ i := by
  cases n with
  | int i => exact ⟨i, rfl, by simpa [ltInt] using hk⟩
  | real x =>
    obtain ⟨i, hi, hki⟩ := Binary64.truncate?_of_isWhole hw hk
    cases x with
    | nan => cases hw
    | infinity s => cases hw
    | finite s m e => exact ⟨i, by simp [truncate, hi], hki⟩

end Number

/-- The parts of an action are such as its document may state. -/
def ActionOf.WellFormed : Action → Prop
  | .narration _ => True
  | .goto k => k ≠ ""
  | .click _ a t => Pattern.anchor.admits a = true ∧ ∀ n ∈ t, n.IsTime
  | .fill _ a v e t =>
    Pattern.anchor.admits a = true ∧ (v.isSome = true ↔ e = none) ∧
      (∀ n ∈ e, Pattern.envName.admits n = true) ∧ ∀ n ∈ t, n.IsTime
  | .waitForEvent _ e t => Pattern.event.admits e = true ∧ 0 ≤ t
  | .expectVisible _ a t => Pattern.anchor.admits a = true ∧ 0 ≤ t
  | .waitMs d => 1 ≤ d
  | .screenshot n _ _ => Pattern.shotName.admits n = true
  | .annotate _ i _ => i ≠ ""

def ExtrasOf.WellFormed (x : Extras) : Prop :=
  (∀ n ∈ x.preDelay, n.IsTime) ∧ (∀ c ∈ x.capture, c.name ≠ "") ∧
    ∀ m ∈ x.markup, m.instructions ≠ ""

def StepOf.WellFormed (s : Step) : Prop := s.action.WellFormed ∧ s.extras.WellFormed

/-- A format accepts the values `f x` for which `P x`, and no others. -/
def Schema.Takes {α : Type} (F : Schema) (f : α → Json) (P : α → Prop) : Prop :=
  ∀ v, F.accepts v = true ↔ ∃ x, v = f x ∧ P x

theorem Schema.Takes.get? {α : Type} {F : Schema} {f : α → Json} {P : α → Prop} (hF : F.Takes f P)
    {v : Json} {key : String} (h : (v.get? key).all F.accepts = true) :
    ∃ o : Option α, v.get? key = o.map f ∧ ∀ x ∈ o, P x := by
  cases hk : v.get? key with
  | none => exact ⟨none, rfl, by simp⟩
  | some w =>
    rw [hk, Option.all_some] at h
    obtain ⟨x, rfl, hx⟩ := (hF w).mp h
    exact ⟨some x, rfl, by simpa using hx⟩

theorem Schema.Takes.get?_of_isSome {α : Type} {F : Schema} {f : α → Json} {P : α → Prop}
    (hF : F.Takes f P) {v : Json} {key : String} (hs : (v.get? key).isSome = true)
    (h : (v.get? key).all F.accepts = true) : ∃ x, v.get? key = some (f x) ∧ P x := by
  obtain ⟨w, hw⟩ := Option.isSome_iff_exists.mp hs
  rw [hw, Option.all_some] at h
  obtain ⟨x, rfl, hx⟩ := (hF w).mp h
  exact ⟨x, hw, hx⟩

theorem Schema.Takes.all_map {α : Type} {F : Schema} {f : α → Json} {P : α → Prop}
    (hF : F.Takes f P) (hf : Function.Injective f) (o : Option α) :
    (o.map f).all F.accepts = true ↔ ∀ x ∈ o, P x := by
  cases o with
  | none => simp
  | some x =>
    rw [Option.map_some, Option.all_some, hF (f x)]
    constructor
    · rintro ⟨y, hy, hP⟩
      rw [hf hy]
      simpa using hP
    · intro h
      exact ⟨x, rfl, h x rfl⟩

namespace Tour

theorem textFormat_takes : textFormat.Takes Json.str fun _ => True := by
  intro v
  rw [textFormat, Schema.accepts_rules]
  cases v <;> simp [Rule.holds, JsonKind.admits]

theorem fullTextFormat_takes : fullTextFormat.Takes Json.str (· ≠ "") := by
  intro v
  rw [fullTextFormat, Schema.accepts_rules]
  cases v <;> simp [Rule.holds, JsonKind.admits]

theorem formFormat_takes (p : Pattern) : (formFormat p).Takes Json.str (p.admits · = true) := by
  intro v
  rw [formFormat, Schema.accepts_rules]
  cases v <;> simp [Rule.holds, JsonKind.admits]

theorem flagFormat_takes : (Schema.rules [.kind .boolean]).Takes Json.bool fun _ => True := by
  intro v
  rw [Schema.accepts_rules]
  cases v <;> simp [Rule.holds, JsonKind.admits]

theorem wholeFormat_takes (k : Int) : (Schema.rules [.kind .integer, .minimum k]).Takes Json.num
    fun n => n.isWhole = true ∧ n.ltInt k = false := by
  intro v
  rw [Schema.accepts_rules]
  cases v <;> simp [Rule.holds, JsonKind.admits]

theorem timeFormat_takes : timeFormat.Takes Json.num Number.IsTime := wholeFormat_takes 0

/-- What the format of one kind of step asks of the members of an object. -/
structure Fits (kind : Rule) (required : List String) (own : List (String × Schema))
    (ms : Json.Members) : Prop where
  kind : ∃ w, ms.get? "type" = some w ∧ kind.holds w = true
  required : ∀ key ∈ required, (ms.get? key).isSome = true
  members : ∀ p ∈ commonMembers ++ own, (ms.get? p.1).all p.2.accepts = true
  known : ∀ m ∈ ms, m.1 = "type" ∨ m.1 ∈ (commonMembers ++ own).map (·.1)

theorem accepts_stepRules (kind : Rule) (required : List String) (own : List (String × Schema))
    (more : List Rule) (ms : Json.Members) :
    (Schema.rules (stepRules kind required own ++ more)).accepts (.obj ms) = true ↔
      Fits kind required own ms ∧ ∀ r ∈ more, r.holds (.obj ms) = true := by
  have hk : (∃ w, ms.get? "type" = some w ∧ kind.holds w = true) ↔
      (ms.get? "type").isSome = true ∧
        (ms.get? "type").all (Schema.rules [kind]).accepts = true := by
    cases ms.get? "type" <;> simp [Schema.accepts_rules]
  have hr : Fits kind required own ms ↔ (stepRules kind required own).all (·.holds (.obj ms)) := by
    simp only [stepRules, List.all_cons, List.all_nil, Rule.holds, JsonKind.admits, Bool.and_true,
      Bool.true_and, Bool.and_eq_true, List.all_eq_true, List.map_cons, List.cons_append,
      List.contains_iff_mem, List.mem_cons]
    constructor
    · rintro ⟨hw, hr, hm, hn⟩
      exact ⟨⟨(hk.mp hw).1, hr⟩, ⟨(hk.mp hw).2, hm⟩, hn⟩
    · rintro ⟨⟨hs, hr⟩, ⟨ha, hm⟩, hn⟩
      exact ⟨hk.mpr ⟨hs, ha⟩, hr, hm, hn⟩
  rw [Schema.accepts_rules, List.all_append, Bool.and_eq_true, hr, List.all_eq_true (l := more)]

theorem momentFormat_takes :
    (Schema.rules [.oneAmong ["before", "after"]]).Takes (fun m : Moment => .str m.word)
      fun _ => True := by
  intro v
  rw [Schema.accepts_rules]
  constructor
  · intro h
    cases v with
    | str t =>
      have ht : t = "before" ∨ t = "after" := by simpa [Rule.holds, Json.str?] using h
      rcases ht with rfl | rfl
      · exact ⟨.before, rfl, trivial⟩
      · exact ⟨.after, rfl, trivial⟩
    | _ => simp [Rule.holds, Json.str?] at h
  · rintro ⟨m, rfl, -⟩
    cases m <;> rfl

/-- A capture as the cue of a step states it. -/
def captureCue (c : Capture) : CaptureOf Json Json Json :=
  ⟨.str c.moment.word, .str c.name, c.fullPage.map .bool⟩

def markupCue (m : Markup) : MarkupOf Json := ⟨.str m.instructions, m.target.map .str⟩

/-- Only an object with a member passes where members are asked for. -/
theorem exists_of_accepts_object {required : List String} {props : List (String × Schema)}
    {known : List String} {v : Json}
    (h : (Schema.rules [.kind .object, .required required, .properties props,
      .additional known none]).accepts v = true) :
    ∃ ms, v = .obj ms ∧ (∀ key ∈ required, (v.get? key).isSome = true) ∧
      ∀ p ∈ props, (v.get? p.1).all p.2.accepts = true := by
  rw [Schema.accepts_rules] at h
  cases v with
  | obj ms =>
    simp only [List.all_cons, Rule.holds, Bool.and_eq_true, List.all_eq_true] at h
    exact ⟨ms, rfl, h.2.1, h.2.2.1⟩
  | _ => simp [Rule.holds, JsonKind.admits] at h

theorem need_of_get? {v w : Json} {key : String} (h : v.get? key = some w) :
    Cue.need v key = .ok w := by
  cases v with
  | obj ms =>
    have h' : Json.Members.get? ms key = some w := h
    simp [Cue.need, h']
  | _ => cases h

theorem optional_of_get? {α : Type} {f : α → Json} (hf : ∀ x, f x ≠ .null) {v : Json}
    {key : String} {o : Option α} (h : v.get? key = o.map f) :
    Cue.optional v key = o.map f := by
  rw [Cue.optional, h, filter_map hf]

theorem readCapture_of_accepts {v : Json} (h : captureFormat.accepts v = true) :
    v.isTruthy = true ∧ ∃ c, Cue.readCapture v = .ok (captureCue c) ∧ c.name ≠ "" := by
  obtain ⟨ms, rfl, hr, hp⟩ := exists_of_accepts_object h
  simp only [List.forall_mem_cons] at hr hp
  obtain ⟨m, hm, -⟩ := momentFormat_takes.get?_of_isSome hr.1 hp.1
  obtain ⟨n, hn, hne⟩ := fullTextFormat_takes.get?_of_isSome hr.2.1 hp.2.1
  obtain ⟨f, hf, -⟩ := flagFormat_takes.get? hp.2.2.1
  refine ⟨?_, ⟨m, n, f⟩, ?_, hne⟩
  · cases ms with
    | nil => cases hm
    | cons m ms => rfl
  · rw [Cue.readCapture, need_of_get? hm, need_of_get? hn, optional_of_get? (by simp) hf]
    rfl

theorem readMarkup_of_accepts {v : Json} (h : markupFormat.accepts v = true) :
    v.isTruthy = true ∧ ∃ m, Cue.readMarkup v = .ok (markupCue m) ∧ m.instructions ≠ "" := by
  obtain ⟨ms, rfl, hr, hp⟩ := exists_of_accepts_object h
  simp only [List.forall_mem_cons] at hr hp
  obtain ⟨i, hi, hne⟩ := fullTextFormat_takes.get?_of_isSome hr.1 hp.1
  obtain ⟨t, ht, -⟩ := textFormat_takes.get? hp.2.1
  refine ⟨?_, ⟨i, t⟩, ?_, hne⟩
  · cases ms with
    | nil => cases hi
    | cons m ms => rfl
  · rw [Cue.readMarkup, need_of_get? hi, optional_of_get? (by simp) ht]
    rfl

theorem accepts_captureJson (c : Capture) :
    captureFormat.accepts (Cue.captureJson (captureCue c)) = true ↔ c.name ≠ "" := by
  obtain ⟨m, n, f⟩ := c
  cases m <;> cases f <;>
    simp [captureFormat, Schema.accepts_rules, Cue.captureJson, captureCue, present, Rule.holds,
      JsonKind.admits, Json.Members.get?, List.lookup_cons, Json.str?, Moment.word]

theorem accepts_markupJson (m : Markup) :
    markupFormat.accepts (Cue.markupJson (markupCue m)) = true ↔ m.instructions ≠ "" := by
  obtain ⟨i, t⟩ := m
  cases t <;>
    simp [markupFormat, Schema.accepts_rules, Cue.markupJson, markupCue, present, Rule.holds,
      JsonKind.admits, Json.Members.get?, List.lookup_cons]

/-- A member that counts only if it is not empty, where nothing empty is accepted. -/
theorem ifFull_of_accepts {α β : Type} {F : Schema} {read : Json → Except Fault α} {f : β → α}
    {P : β → Prop}
    (hF : ∀ w, F.accepts w = true → w.isTruthy = true ∧ ∃ x, read w = .ok (f x) ∧ P x)
    {v : Json} {key : String} (h : (v.get? key).all F.accepts = true) :
    ∃ o : Option β, Cue.ifFull read v key = .ok (o.map f) ∧ ∀ x ∈ o, P x := by
  rw [Cue.ifFull]
  cases hk : v.get? key with
  | none => exact ⟨none, rfl, by simp⟩
  | some w =>
    rw [hk, Option.all_some] at h
    obtain ⟨ht, x, hx, hP⟩ := hF w h
    refine ⟨some x, ?_, by simpa using hP⟩
    rw [Option.filter_some, if_pos ht]
    change (some <$> read w) = _
    rw [hx]
    rfl

/-- What goes with a step is read out of the members that every step may have. -/
theorem readExtras_of_accepts {v : Json}
    (h : ∀ p ∈ commonMembers, (v.get? p.1).all p.2.accepts = true) :
    ∃ x : Extras, x.WellFormed ∧
      ∀ a : Action, Cue.readExtras v = .ok (Step.cue ⟨a, x⟩).extras := by
  simp only [commonMembers, List.forall_mem_cons] at h
  obtain ⟨-, hp, hn, hc, hm, -⟩ := h
  obtain ⟨p, hp, hpt⟩ := timeFormat_takes.get? hp
  obtain ⟨n, hn, -⟩ := textFormat_takes.get? hn
  obtain ⟨c, hc, hcn⟩ := ifFull_of_accepts (fun w => readCapture_of_accepts) hc
  obtain ⟨m, hm, hmi⟩ := ifFull_of_accepts (fun w => readMarkup_of_accepts) hm
  refine ⟨⟨p, n, c, m⟩, ⟨hpt, hcn, hmi⟩, fun a => ?_⟩
  rw [Cue.readExtras, hc, hm, ok_bind, ok_bind, optional_of_get? (by simp) hp,
    optional_of_get? (by simp) hn]
  rfl

theorem orEmpty_of_get? {v : Json} {key : String} {o : Option String}
    (h : v.get? key = o.map Json.str) : Cue.orEmpty v key = .str (o.getD "") := by
  rw [Cue.orEmpty, h]
  cases o <;> rfl

theorem whole_of_isWhole {n : Number} {k : Int} (h : n.isWhole = true ∧ n.ltInt k = false) :
    ∃ i, Cue.whole (.num n) = .ok i ∧ k ≤ i := by
  obtain ⟨i, hi, hk⟩ := Number.truncate_of_isWhole h.1 h.2
  exact ⟨i, by rw [Cue.whole, hi]; rfl, hk⟩

theorem timeout_of_accepts {v : Json}
    (h : (v.get? "timeoutMs").all timeFormat.accepts = true) :
    ∃ t, Cue.timeout v = .ok t ∧ 0 ≤ t := by
  obtain ⟨o, ho, ht⟩ := timeFormat_takes.get? h
  rw [Cue.timeout, ho]
  cases o with
  | none => exact ⟨defaultTimeout, rfl, by decide⟩
  | some n => exact whole_of_isWhole (ht n rfl)

theorem message_of_accepts {v : Json} (hm : (v.get? "message").all textFormat.accepts = true)
    (ht : (v.get? "text").all textFormat.accepts = true) : ∃ m, Cue.message v = .str m := by
  obtain ⟨m, hm, -⟩ := textFormat_takes.get? hm
  obtain ⟨t, ht, -⟩ := textFormat_takes.get? ht
  rw [Cue.message, hm, orEmpty_of_get? ht]
  cases m with
  | none => exact ⟨t.getD "", rfl⟩
  | some m =>
    by_cases he : m = ""
    · exact ⟨t.getD "", by rw [he]; rfl⟩
    · have hf : (Json.str m).isTruthy = true := by simp [Json.isTruthy, he]
      exact ⟨m, by rw [Option.map_some, Option.filter_some, if_pos hf]; rfl⟩

/-- An action is read out of a document as the given one. -/
def Reads (v : Json) (kind : String) (a : Action) : Prop :=
  Cue.readAction kind v = .ok (a.map .str .bool .num)

theorem ofJson_of_reads {v : Json} {kind : String} {a : Action} {x : Extras}
    (ht : v.get? "type" = some (.str kind)) (ha : Reads v kind a)
    (hx : Cue.readExtras v = .ok (Step.cue ⟨a, x⟩).extras) : Step.ofJson v = .ok ⟨a, x⟩ := by
  have hk : Cue.kindWords (.str kind) = .ok kind := rfl
  rw [Step.ofJson, Cue.ofJson, need_of_get? ht, ok_bind, hx, ok_bind, hk, ok_bind, ha, ok_bind]
  exact Step.step_cue ⟨a, x⟩

section kinds

variable {kind : Rule} {required : List String} {own : List (String × Schema)} {ms : Json.Members}

theorem exists_of_accepts_stepRules {v : Json} (more : List Rule)
    (h : (Schema.rules (stepRules kind required own ++ more)).accepts v = true) :
    ∃ ms, v = .obj ms ∧ Fits kind required own ms ∧ ∀ r ∈ more, r.holds v = true := by
  cases v with
  | obj ms => exact ⟨ms, rfl, (accepts_stepRules kind required own more ms).mp h⟩
  | _ => simp [Schema.accepts_rules, stepRules, Rule.holds, JsonKind.admits] at h

theorem exists_fits_of_accepts {v : Json}
    (h : (Schema.rules (stepRules kind required own)).accepts v = true) :
    ∃ ms, v = .obj ms ∧ Fits kind required own ms := by
  rw [← List.append_nil (stepRules kind required own)] at h
  obtain ⟨ms, rfl, hf, -⟩ := exists_of_accepts_stepRules [] h
  exact ⟨ms, rfl, hf⟩

theorem Fits.type_of_const {k : String} (h : Fits (.const k) required own ms) :
    (Json.obj ms).get? "type" = some (.str k) := by
  obtain ⟨w, hw, hk⟩ := h.kind
  have hw' : w = .str k := by
    cases w <;> simp_all [Rule.holds, Json.str?]
  exact hw' ▸ hw

theorem Fits.type_of_oneAmong {ks : List String} (h : Fits (.oneAmong ks) required own ms) :
    ∃ k ∈ ks, (Json.obj ms).get? "type" = some (.str k) := by
  obtain ⟨w, hw, hk⟩ := h.kind
  cases w with
  | str k => exact ⟨k, by simpa [Rule.holds, Json.str?] using hk, hw⟩
  | _ => simp [Rule.holds, Json.str?] at hk

theorem Fits.label (h : Fits kind required own ms) :
    ∃ l : Option String, (Json.obj ms).get? "label" = l.map .str := by
  have hl := h.members ("label", textFormat) (List.mem_append_left _ (by simp [commonMembers]))
  obtain ⟨l, hl, -⟩ := textFormat_takes.get? (v := .obj ms) hl
  exact ⟨l, hl⟩

/-- A member of its own that a kind of step asks for. -/
theorem Fits.need {α : Type} (h : Fits kind required own ms) {F : Schema} {f : α → Json}
    {P : α → Prop} (key : String) (hF : F.Takes f P) (hk : (key, F) ∈ own) (hr : key ∈ required) :
    ∃ x, Cue.need (.obj ms) key = .ok (f x) ∧ P x := by
  have hm := h.members (key, F) (List.mem_append_right _ hk)
  obtain ⟨x, hx, hP⟩ := hF.get?_of_isSome (v := .obj ms) (h.required key hr) hm
  exact ⟨x, need_of_get? hx, hP⟩

theorem Fits.get? {α : Type} (h : Fits kind required own ms) {F : Schema} {f : α → Json}
    {P : α → Prop} (key : String) (hF : F.Takes f P) (hk : (key, F) ∈ own) :
    ∃ o : Option α, (Json.obj ms).get? key = o.map f ∧ ∀ x ∈ o, P x :=
  hF.get? (h.members (key, F) (List.mem_append_right _ hk))

theorem reads_narration (h : Fits (.oneAmong ["narration", "say"]) []
      [("message", textFormat), ("text", textFormat)] ms) :
    ∃ a : Action, (∀ kind ∈ ["narration", "say"], Reads (.obj ms) kind a) ∧ a.WellFormed := by
  obtain ⟨m, hm⟩ := message_of_accepts (v := .obj ms)
    (h.members ("message", textFormat) (by simp)) (h.members ("text", textFormat) (by simp))
  refine ⟨.narration m, ?_, trivial⟩
  simp only [List.forall_mem_cons, Reads, Cue.readAction, hm]
  exact ⟨rfl, rfl, by simp⟩

theorem reads_goto (h : Fits (.const "goto") ["routeKey"] [("routeKey", fullTextFormat)] ms) :
    ∃ a : Action, Reads (.obj ms) "goto" a ∧ a.WellFormed := by
  obtain ⟨k, hk, hne⟩ := h.need "routeKey" fullTextFormat_takes (by simp) (by simp)
  refine ⟨.goto k, ?_, hne⟩
  simp only [Reads, Cue.readAction, hk]
  rfl

theorem reads_click (h : Fits (.const "click") ["anchor"]
      [("anchor", formFormat .anchor), ("timeoutMs", timeFormat)] ms) :
    ∃ a : Action, Reads (.obj ms) "click" a ∧ a.WellFormed := by
  obtain ⟨l, hl⟩ := h.label
  obtain ⟨a, ha, haf⟩ := h.need "anchor" (formFormat_takes .anchor) (by simp) (by simp)
  obtain ⟨t, ht, htt⟩ := h.get? "timeoutMs" timeFormat_takes (by simp)
  refine ⟨.click (l.getD "") a t, ?_, haf, htt⟩
  simp only [Reads, Cue.readAction, orEmpty_of_get? hl, ha, optional_of_get? (by simp) ht]
  rfl

theorem reads_waitForEvent (h : Fits (.const "waitForEvent") ["name"]
      [("name", formFormat .event), ("timeoutMs", timeFormat)] ms) :
    ∃ a : Action, Reads (.obj ms) "waitForEvent" a ∧ a.WellFormed := by
  obtain ⟨l, hl⟩ := h.label
  obtain ⟨e, he, hef⟩ := h.need "name" (formFormat_takes .event) (by simp) (by simp)
  obtain ⟨t, ht, htt⟩ := timeout_of_accepts (v := .obj ms)
    (h.members ("timeoutMs", timeFormat) (by simp))
  refine ⟨.waitForEvent (l.getD "") e t, ?_, hef, htt⟩
  simp only [Reads, Cue.readAction, orEmpty_of_get? hl, he, ht]
  rfl

theorem reads_expectVisible (h : Fits (.const "expectVisible") ["anchor"]
      [("anchor", formFormat .anchor), ("timeoutMs", timeFormat)] ms) :
    ∃ a : Action, Reads (.obj ms) "expectVisible" a ∧ a.WellFormed := by
  obtain ⟨l, hl⟩ := h.label
  obtain ⟨a, ha, haf⟩ := h.need "anchor" (formFormat_takes .anchor) (by simp) (by simp)
  obtain ⟨t, ht, htt⟩ := timeout_of_accepts (v := .obj ms)
    (h.members ("timeoutMs", timeFormat) (by simp))
  refine ⟨.expectVisible (l.getD "") a t, ?_, haf, htt⟩
  simp only [Reads, Cue.readAction, orEmpty_of_get? hl, ha, ht]
  rfl

theorem reads_waitMs (h : Fits (.const "waitMs") ["durationMs"]
      [("durationMs", .rules [.kind .integer, .minimum 1])] ms) :
    ∃ a : Action, Reads (.obj ms) "waitMs" a ∧ a.WellFormed := by
  obtain ⟨n, hn, hw⟩ := h.need "durationMs" (wholeFormat_takes 1) (by simp) (by simp)
  obtain ⟨d, hd, hk⟩ := whole_of_isWhole hw
  refine ⟨.waitMs d, ?_, hk⟩
  simp only [Reads, Cue.readAction, hn, ok_bind, hd]
  rfl

theorem reads_screenshot (h : Fits (.oneAmong ["screenshot", "snapshot"]) ["name"]
      [("name", formFormat .shotName), ("fullPage", .rules [.kind .boolean])] ms) :
    ∃ a : Action, (∀ kind ∈ ["screenshot", "snapshot"], Reads (.obj ms) kind a) ∧
      a.WellFormed := by
  obtain ⟨l, hl⟩ := h.label
  obtain ⟨n, hn, hnf⟩ := h.need "name" (formFormat_takes .shotName) (by simp) (by simp)
  obtain ⟨f, hf, -⟩ := h.get? "fullPage" flagFormat_takes (by simp)
  refine ⟨.screenshot n l f, ?_, hnf⟩
  simp only [List.forall_mem_cons, Reads, Cue.readAction, hn, optional_of_get? (by simp) hl,
    optional_of_get? (by simp) hf]
  exact ⟨rfl, rfl, by simp⟩

theorem reads_annotate (h : Fits (.const "annotate") ["instructions"]
      [("instructions", fullTextFormat), ("targetScreenshot", textFormat)] ms) :
    ∃ a : Action, Reads (.obj ms) "annotate" a ∧ a.WellFormed := by
  obtain ⟨l, hl⟩ := h.label
  obtain ⟨i, hi, hne⟩ := h.need "instructions" fullTextFormat_takes (by simp) (by simp)
  obtain ⟨t, ht, -⟩ := h.get? "targetScreenshot" textFormat_takes (by simp)
  refine ⟨.annotate (l.getD "") i t, ?_, hne⟩
  simp only [Reads, Cue.readAction, orEmpty_of_get? hl, hi, optional_of_get? (by simp) ht]
  rfl

/-- Exactly one of the text and the variable of a fill is there. -/
theorem reads_fill (h : Fits (.const "fill") ["anchor"]
      [("anchor", formFormat .anchor), ("value", textFormat), ("valueEnv", formFormat .envName),
        ("timeoutMs", timeFormat)] ms)
    (hv : (Rule.oneOf [.rules [.required ["value"]], .rules [.required ["valueEnv"]]]).holds
      (.obj ms) = true) :
    ∃ a : Action, Reads (.obj ms) "fill" a ∧ a.WellFormed := by
  obtain ⟨l, hl⟩ := h.label
  obtain ⟨a, ha, haf⟩ := h.need "anchor" (formFormat_takes .anchor) (by simp) (by simp)
  obtain ⟨w, hw, -⟩ := h.get? "value" textFormat_takes (by simp)
  obtain ⟨e, he, hef⟩ := h.get? "valueEnv" (formFormat_takes .envName) (by simp)
  obtain ⟨t, ht, htt⟩ := h.get? "timeoutMs" timeFormat_takes (by simp)
  have hone : w.isSome = true ↔ e = none := by
    have hw' : Json.Members.get? ms "value" = w.map .str := hw
    have he' : Json.Members.get? ms "valueEnv" = e.map .str := he
    rw [Rule.holds] at hv
    cases w <;> cases e <;> simp_all [Schema.accepts_rules, Rule.holds]
  refine ⟨.fill (l.getD "") a w e t, ?_, haf, hone, hef, htt⟩
  simp only [Reads, Cue.readAction, orEmpty_of_get? hl, ha, optional_of_get? (by simp) hw,
    optional_of_get? (by simp) he, optional_of_get? (by simp) ht]
  rfl

/-- A step whose document has the members of its kind is read, and is well-formed. -/
theorem Fits.exists_step {k : String} (h : Fits kind required own ms)
    (ht : (Json.obj ms).get? "type" = some (.str k))
    (ha : ∃ a : Action, Reads (.obj ms) k a ∧ a.WellFormed) :
    ∃ s, Step.ofJson (.obj ms) = .ok s ∧ s.WellFormed := by
  obtain ⟨a, ha, haw⟩ := ha
  obtain ⟨x, hxw, hx⟩ := readExtras_of_accepts (v := .obj ms) fun p hp =>
    h.members p (List.mem_append_left own hp)
  exact ⟨⟨a, x⟩, ofJson_of_reads ht ha (hx a), haw, hxw⟩

theorem Fits.exists_step_const {k : String} (h : Fits (.const k) required own ms)
    (ha : ∃ a : Action, Reads (.obj ms) k a ∧ a.WellFormed) :
    ∃ s, Step.ofJson (.obj ms) = .ok s ∧ s.WellFormed :=
  h.exists_step h.type_of_const ha

theorem Fits.exists_step_oneAmong {ks : List String} (h : Fits (.oneAmong ks) required own ms)
    (ha : ∃ a : Action, (∀ k ∈ ks, Reads (.obj ms) k a) ∧ a.WellFormed) :
    ∃ s, Step.ofJson (.obj ms) = .ok s ∧ s.WellFormed := by
  obtain ⟨k, hk, ht⟩ := h.type_of_oneAmong
  obtain ⟨a, ha, haw⟩ := ha
  exact h.exists_step ht ⟨a, ha k hk, haw⟩

end kinds

/-- The words for each kind of step, in the order of the formats. -/
def kindWords : List (List String) :=
  [["narration", "say"], ["goto"], ["click"], ["fill"], ["waitForEvent"], ["expectVisible"],
    ["waitMs"], ["screenshot", "snapshot"], ["annotate"]]

/-- A document is of a kind. -/
def IsOf (v : Json) (words : List String) : Prop := ∃ k ∈ words, v.get? "type" = some (.str k)

theorem isOf_const {required : List String} {own : List (String × Schema)} (more : List Rule)
    {k : String} {v : Json}
    (h : (Schema.rules (stepRules (.const k) required own ++ more)).accepts v = true) :
    IsOf v [k] := by
  obtain ⟨ms, rfl, hf, -⟩ := exists_of_accepts_stepRules more h
  exact ⟨k, List.mem_singleton_self k, hf.type_of_const⟩

theorem isOf_oneAmong {required : List String} {own : List (String × Schema)} {ks : List String}
    {v : Json} (h : (Schema.rules (stepRules (.oneAmong ks) required own)).accepts v = true) :
    IsOf v ks := by
  obtain ⟨ms, rfl, hf⟩ := exists_fits_of_accepts h
  exact hf.type_of_oneAmong

theorem stepFormats_isOf (v : Json) :
    List.Forall₂ (fun b words => b.accepts v = true → IsOf v words) stepFormats kindWords :=
  .cons isOf_oneAmong <| .cons (isOf_const []) <| .cons (isOf_const []) <|
    .cons (isOf_const _) <| .cons (isOf_const []) <| .cons (isOf_const []) <|
    .cons (isOf_const []) <| .cons isOf_oneAmong <| .cons (isOf_const []) .nil

theorem exists_of_forall₂ {α β : Type} {R : α → β → Prop} {xs : List α} {ys : List β}
    (h : List.Forall₂ R xs ys) {x : α} (hx : x ∈ xs) : ∃ y ∈ ys, R x y := by
  induction h with
  | nil => cases hx
  | cons hxy _ ih =>
    rcases List.mem_cons.mp hx with rfl | hx
    · exact ⟨_, List.mem_cons_self, hxy⟩
    · obtain ⟨y, hy, hR⟩ := ih hx
      exact ⟨y, List.mem_cons_of_mem _ hy, hR⟩

/-- At most one item passes where what the items ask for excludes one another. -/
theorem countP_le_one {α β : Type} {p : α → Bool} {R : β → Prop} {xs : List α} {ys : List β}
    (h : List.Forall₂ (fun x y => p x = true → R y) xs ys)
    (hd : ys.Pairwise fun y z => R y → ¬ R z) : xs.countP p ≤ 1 := by
  induction h with
  | nil => exact Nat.zero_le 1
  | @cons x y xs ys hxy hrest ih =>
    rw [List.pairwise_cons] at hd
    rw [List.countP_cons]
    split_ifs with hx
    · have hn : xs.countP p = 0 := by
        refine List.countP_eq_zero.mpr fun z hz hpz => ?_
        obtain ⟨w, hw, hzw⟩ := exists_of_forall₂ hrest hz
        exact hd.1 w hw (hxy hx) (hzw hpz)
      omega
    · exact ih hd.2

/-- No document has the format of two kinds of steps. -/
theorem countP_stepFormats_le_one (v : Json) : stepFormats.countP (·.accepts v) ≤ 1 := by
  have hd : kindWords.Pairwise fun ks ls => ∀ k ∈ ks, k ∉ ls := by decide
  refine countP_le_one (stepFormats_isOf v) (hd.imp ?_)
  rintro ks ls hkl ⟨k, hk, hvk⟩ ⟨l, hl, hvl⟩
  have he : k = l := Json.str.inj (Option.some.inj (hvk.symm.trans hvl))
  exact hkl k hk (he ▸ hl)

theorem stepFormat_accepts_iff (v : Json) :
    stepFormat.accepts v = true ↔ ∃ b ∈ stepFormats, b.accepts v = true := by
  have hone := countP_stepFormats_le_one v
  have hpos : 0 < stepFormats.countP (·.accepts v) ↔ ∃ b ∈ stepFormats, b.accepts v = true :=
    List.countP_pos_iff
  rw [← hpos, stepFormat, Schema.accepts_rules]
  simp only [List.all_cons, List.all_nil, Rule.holds, Bool.and_true, beq_iff_eq]
  omega

/-- Whatever has the format of steps is read as a step. -/
theorem exists_step_of_accepts {v : Json} (h : stepFormat.accepts v = true) :
    ∃ s, Step.ofJson v = .ok s ∧ s.WellFormed := by
  obtain ⟨b, hb, hv⟩ := (stepFormat_accepts_iff v).mp h
  simp only [stepFormats, List.mem_cons, List.not_mem_nil, or_false] at hb
  rcases hb with rfl | rfl | rfl | rfl | rfl | rfl | rfl | rfl | rfl
  · obtain ⟨ms, rfl, hf⟩ := exists_fits_of_accepts hv
    exact hf.exists_step_oneAmong (reads_narration hf)
  · obtain ⟨ms, rfl, hf⟩ := exists_fits_of_accepts hv
    exact hf.exists_step_const (reads_goto hf)
  · obtain ⟨ms, rfl, hf⟩ := exists_fits_of_accepts hv
    exact hf.exists_step_const (reads_click hf)
  · obtain ⟨ms, rfl, hf, hm⟩ := exists_of_accepts_stepRules _ hv
    exact hf.exists_step_const (reads_fill hf (hm _ List.mem_cons_self))
  · obtain ⟨ms, rfl, hf⟩ := exists_fits_of_accepts hv
    exact hf.exists_step_const (reads_waitForEvent hf)
  · obtain ⟨ms, rfl, hf⟩ := exists_fits_of_accepts hv
    exact hf.exists_step_const (reads_expectVisible hf)
  · obtain ⟨ms, rfl, hf⟩ := exists_fits_of_accepts hv
    exact hf.exists_step_const (reads_waitMs hf)
  · obtain ⟨ms, rfl, hf⟩ := exists_fits_of_accepts hv
    exact hf.exists_step_oneAmong (reads_screenshot hf)
  · obtain ⟨ms, rfl, hf⟩ := exists_fits_of_accepts hv
    exact hf.exists_step_const (reads_annotate hf)

end Tour

end Walkthrough
