import Walkthrough.Proofs.Guide.Steps
import Walkthrough.Proofs.Identifier
import Walkthrough.Proofs.Tour.Format
/-!
The grammar of guides against the format of tours: what a line is read as has the format, but for
the anchors of expectations, which are read in letters of any case.
-/

namespace Walkthrough

theorem Pattern.admits_of_form {form : List Char → Bool} {s : List Char} (h : form s = true) :
    upToLineFeed form (String.ofList s).toList = true := by
  rw [String.toList_ofList, upToLineFeed, h]
  rfl

namespace Guide

theorem run?_ne_nil {p : Char → Bool} {s t r : List Char} (h : run? p s = some (t, r)) :
    t ≠ [] ∧ t.all p = true := by
  unfold run? at h
  split at h
  · cases h
  · next ht hne =>
    cases h
    exact ⟨hne, List.all_takeWhile⟩

theorem closing?_ne_nil {s t : List Char} (h : closing? s = some t) : t ≠ [] := by
  unfold closing? at h
  split_ifs at h with hc
  cases h
  rintro rfl
  simp at hc

/-- A cut is a front of the text with something of the form behind it. -/
theorem mem_cuts {α : Type} {form : List Char → Option α} {before s front : List Char} {a : α}
    (h : (front, a) ∈ cuts form before s) :
    ∃ x r, s = x ++ r ∧ front = before.reverse ++ x ∧ form r = some a := by
  induction s generalizing before with
  | nil =>
    simp only [cuts, Option.mem_toList, Option.map_eq_some_iff] at h
    obtain ⟨a, ha, he⟩ := h
    cases he
    exact ⟨[], [], rfl, (List.append_nil _).symm, ha⟩
  | cons d s ih =>
    have hrest (h : (front, a) ∈ cuts form (d :: before) s) :
        ∃ x r, d :: s = x ++ r ∧ front = before.reverse ++ x ∧ form r = some a := by
      obtain ⟨x, r, rfl, rfl, ha⟩ := ih h
      exact ⟨d :: x, r, rfl, by simp, ha⟩
    unfold cuts at h
    split at h
    · next a' ha' =>
      rcases List.mem_cons.mp h with he | h
      · cases he
        exact ⟨[], d :: s, rfl, (List.append_nil _).symm, ha'⟩
      · exact hrest h
    · exact hrest h

/-- What stands behind a label has the form that was asked for. -/
theorem exists_form_of_labelled {α : Type} {form : List Char → Option α} {s l : List Char} {a : α}
    (h : labelled form s = some (l, a)) : ∃ r, form r = some a := by
  have hcut {front : List Char} (hc : (front, a) ∈ cuts form [] s) : ∃ r, form r = some a := by
    obtain ⟨x, r, -, -, ha⟩ := mem_cuts hc
    exact ⟨r, ha⟩
  unfold labelled at h
  simp only at h
  split at h
  · next found hf =>
    cases h
    obtain ⟨c, hc, hm⟩ := List.exists_of_findSome?_eq_some hf
    obtain ⟨m, -, he⟩ := Option.map_eq_some_iff.mp hm
    cases he
    exact hcut hc
  · obtain ⟨c, hc, hm⟩ := List.exists_of_findSome?_eq_some h
    obtain ⟨m, -, he⟩ := Option.map_eq_some_iff.mp hm
    cases he
    exact hcut (List.mem_reverse.mp hc)

theorem form_of_parenthesized? {form : List Char → Bool} {s a r : List Char}
    (h : parenthesized? form s = some (a, r)) : form a = true := by
  unfold parenthesized? at h
  split at h
  · split at h
    · simp only at h
      split_ifs at h with hf
      cases h
      exact hf
    · cases h
  · cases h

namespace Directive

/-- The parts of a directive have the forms of its kind; an anchor to expect may have letters of
another case in it. -/
def WellFormed : Directive → Prop
  | goto k => k ≠ []
  | click _ a => isAnchor a = true
  | fill _ a (.value _) => isAnchor a = true
  | fill _ a (.variable_ n) => isAnchor a = true ∧ isVariable n = true
  | waitForEvent _ e _ => isEvent e = true
  | expectVisible _ a _ => isAnchorAnyCase a = true
  | screenshot n _ _ => isShotName n = true
  | annotate _ _ i => i ≠ []
  | _ => True

theorem goto?_wellFormed {s : List Char} {d : Directive} (h : goto? s = some d) :
    d.WellFormed := by
  simp only [goto?, Option.bind_eq_bind, Option.bind_eq_some_iff, Option.map_eq_map,
    Option.map_eq_some_iff] at h
  obtain ⟨r₁, -, r₂, -, r₃, -, k, hk, rfl⟩ := h
  unfold wordToEnd? at hk
  split at hk
  · next w hw =>
    cases hk
    exact (run?_ne_nil hw).1
  · cases hk

theorem click?_wellFormed {s : List Char} {d : Directive} (h : click? s = some d) :
    d.WellFormed := by
  simp only [click?, Option.bind_eq_bind, Option.bind_eq_some_iff] at h
  obtain ⟨r, -, ⟨l, a⟩, hl, h⟩ := h
  cases h
  obtain ⟨r, hr⟩ := exists_form_of_labelled hl
  unfold anchorToEnd? at hr
  split at hr
  · next b hb =>
    cases hr
    exact form_of_parenthesized? hb
  · cases hr

theorem fill?_wellFormed {s : List Char} {d : Directive} (h : fill? s = some d) :
    d.WellFormed := by
  simp only [fill?, Option.bind_eq_bind, Option.bind_eq_some_iff] at h
  obtain ⟨r, -, ⟨l, a, source⟩, hl, h⟩ := h
  cases h
  obtain ⟨r, hr⟩ := exists_form_of_labelled hl
  simp only [anchorAndSource?, Option.bind_eq_bind, Option.bind_eq_some_iff] at hr
  obtain ⟨⟨b, r⟩, hb, r', -, source', hs, hr⟩ := hr
  cases hr
  have ha := form_of_parenthesized? hb
  cases source with
  | value v => exact ha
  | variable_ n =>
    refine ⟨ha, ?_⟩
    unfold fillSource? at hs
    split at hs
    · obtain ⟨v, -, hv⟩ := Option.map_eq_some_iff.mp hs
      cases hv
    · simp only [Option.bind_eq_bind, Option.bind_eq_some_iff] at hs
      obtain ⟨n', -, hs⟩ := hs
      split_ifs at hs with hn
      cases hs
      exact hn

theorem form_of_nameAndTimeout? {form : List Char → Bool} {word : List Char → Option (List Char)}
    {s a : List Char} {t : Option (List Char)} (h : nameAndTimeout? form word s = some (a, t)) :
    form a = true := by
  simp only [nameAndTimeout?, Option.bind_eq_bind, Option.bind_eq_some_iff] at h
  obtain ⟨⟨b, r⟩, hb, t', -, h⟩ := h
  cases h
  exact form_of_parenthesized? hb

theorem waitForEvent?_wellFormed {s : List Char} {d : Directive} (h : waitForEvent? s = some d) :
    d.WellFormed := by
  simp only [waitForEvent?, Option.bind_eq_bind, Option.bind_eq_some_iff] at h
  obtain ⟨r₁, -, r₂, -, r₃, -, ⟨l, e, t⟩, hl, h⟩ := h
  cases h
  obtain ⟨r, hr⟩ := exists_form_of_labelled hl
  exact form_of_nameAndTimeout? hr

theorem expectVisible?_wellFormed {s : List Char} {d : Directive}
    (h : expectVisible? s = some d) : d.WellFormed := by
  simp only [expectVisible?, Option.bind_eq_bind, Option.bind_eq_some_iff] at h
  obtain ⟨r₁, -, r₂, -, r₃, -, ⟨l, a, t⟩, hl, h⟩ := h
  cases h
  obtain ⟨r, hr⟩ := exists_form_of_labelled hl
  exact form_of_nameAndTimeout? hr

theorem isShotName_of_nameAndFlag? {s n : List Char} {f : Option Bool}
    (h : nameAndFlag? s = some (n, f)) : isShotName n = true := by
  simp only [nameAndFlag?, Option.bind_eq_bind, Option.bind_eq_some_iff] at h
  obtain ⟨r₁, -, r₂, -, ⟨m, r₃⟩, hm, h⟩ := h
  have hn : m = n := by
    split at h
    · cases h; rfl
    · simp only [Option.bind_eq_some_iff] at h
      obtain ⟨_, -, _, -, _, -, h⟩ := h
      cases h
      rfl
  obtain ⟨hne, ha⟩ := run?_ne_nil (hn ▸ hm)
  simp [isShotName, allOf, hne, ha]

theorem screenshot?_wellFormed {s : List Char} {d : Directive} (h : screenshot? s = some d) :
    d.WellFormed := by
  simp only [screenshot?, Option.bind_eq_bind, Option.bind_eq_some_iff] at h
  obtain ⟨r, -, h⟩ := h
  split at h
  · next l n f hl =>
    cases h
    obtain ⟨r, hr⟩ := exists_form_of_labelled hl
    exact isShotName_of_nameAndFlag? hr
  · simp only [Option.bind_eq_some_iff] at h
    obtain ⟨⟨n, f⟩, hn, h⟩ := h
    cases h
    exact isShotName_of_nameAndFlag? hn

theorem ne_nil_of_messageAfter? {w : String} {s t : List Char}
    (h : messageAfter? w s = some t) : t ≠ [] := by
  simp only [messageAfter?, Option.bind_eq_bind, Option.bind_eq_some_iff] at h
  obtain ⟨r, -, h⟩ := h
  exact closing?_ne_nil h

theorem ne_nil_of_targetAndInstructions? {s i : List Char} {t : Option (List Char)}
    (h : targetAndInstructions? s = some (t, i)) : i ≠ [] := by
  have hi {s i : List Char} (h : instructions? s = some i) : i ≠ [] := by
    simp only [instructions?, Option.bind_eq_bind, Option.bind_eq_some_iff] at h
    obtain ⟨r, -, h⟩ := h
    exact ne_nil_of_messageAfter? h
  simp only [targetAndInstructions?, Option.bind_eq_bind, Option.or_eq_some_iff,
    Option.bind_eq_some_iff, Option.map_eq_some_iff] at h
  rcases h with ⟨r₁, -, r₂, -, ⟨t', r₃⟩, -, i', h', h⟩ | ⟨-, i', h', h⟩
  · cases h
    exact hi h'
  · cases h
    exact hi h'

theorem annotate?_wellFormed {s : List Char} {d : Directive} (h : annotate? s = some d) :
    d.WellFormed := by
  simp only [annotate?, Option.bind_eq_bind, Option.bind_eq_some_iff] at h
  obtain ⟨r, -, h⟩ := h
  split at h
  · next t i hi =>
    cases h
    exact ne_nil_of_targetAndInstructions? hi
  · simp only [Option.bind_eq_some_iff] at h
    obtain ⟨⟨l, t, i⟩, hl, h⟩ := h
    cases h
    obtain ⟨r, hr⟩ := exists_form_of_labelled hl
    exact ne_nil_of_targetAndInstructions? hr

theorem ofText?_wellFormed {s : List Char} {d : Directive} (h : ofText? s = some d) :
    d.WellFormed := by
  obtain ⟨form, hf, hd⟩ := List.exists_of_findSome?_eq_some h
  simp only [forms, List.mem_cons, List.not_mem_nil, or_false] at hf
  rcases hf with rfl | rfl | rfl | rfl | rfl | rfl | rfl | rfl | rfl | rfl
  · obtain ⟨m, -, rfl⟩ := Option.map_eq_some_iff.mp hd
    trivial
  · exact goto?_wellFormed hd
  · exact click?_wellFormed hd
  · exact fill?_wellFormed hd
  · exact waitForEvent?_wellFormed hd
  · exact expectVisible?_wellFormed hd
  · simp only [waitMs?, Option.bind_eq_bind, Option.bind_eq_some_iff] at hd
    obtain ⟨r₁, -, r₂, -, p, -, hd⟩ := hd
    split_ifs at hd
    cases hd
    trivial
  · exact screenshot?_wellFormed hd
  · exact annotate?_wellFormed hd
  · simp only [includeFragment?, Option.bind_eq_bind, Option.bind_eq_some_iff, Option.map_eq_map,
      Option.map_eq_some_iff] at hd
    obtain ⟨r₁, -, r₂, -, r₃, -, n, -, rfl⟩ := hd
    trivial

end Directive

theorem mem_of_afterAnyCase? {word s r : List Char}
    (h : Directive.afterAnyCase? word s = some r) {c : Char} (hc : c ∈ s) :
    c ∈ r ∨ ∃ w ∈ word, Directive.sameLetter w c = true := by
  fun_induction Directive.afterAnyCase? word s with
  | case1 s =>
    cases h
    exact Or.inl hc
  | case2 w ws d s hs ih =>
    rcases List.mem_cons.mp hc with rfl | hc
    · exact Or.inr ⟨w, List.mem_cons_self, hs⟩
    · refine (ih h hc).imp_right ?_
      rintro ⟨v, hv, hvc⟩
      exact ⟨v, List.mem_cons_of_mem w hv, hvc⟩
  | case3 => cases h
  | case4 => cases h

theorem not_mem_of_isAnchorAnyCase {s : List Char} (h : Directive.isAnchorAnyCase s = true) :
    '\n' ∉ s := by
  intro hc
  unfold Directive.isAnchorAnyCase at h
  split at h
  · next root a b parts hp =>
    simp only [Bool.and_eq_true, beq_iff_eq, List.all_eq_true] at h
    obtain ⟨p, hps, hcp⟩ := (Text.exists_piece '.' hc).resolve_left (by decide)
    rw [hp] at hps
    rcases List.mem_cons.mp hps with rfl | hps
    · have hroot : ("tour".toList.any fun w => Directive.sameLetter w '\n') = false := by decide
      rcases mem_of_afterAnyCase? h.1 hcp with hr | ⟨w, hw, hs⟩
      · cases hr
      · exact List.any_eq_false.mp hroot w hw hs
    · have hall := h.2 p hps
      simp only [allOf, Bool.and_eq_true, List.all_eq_true] at hall
      exact absurd (hall.2 _ hcp) (by decide)
  · cases h

end Guide

/-- An anchor to expect is spelled as anchors are. -/
def ActionOf.Spelled (a : Action) : Prop :=
  ∀ label anchor timeout, a = .expectVisible label anchor timeout →
    isAnchor anchor.toList = true

namespace Guide

theorem admits_anchor_iff {s : List Char} (h : Directive.isAnchorAnyCase s = true) :
    Pattern.anchor.admits (str s) = true ↔ isAnchor s = true := by
  rw [Pattern.admits, String.toList_ofList, upToLineFeed_of_not_mem (not_mem_of_isAnchorAnyCase h)]

theorem isTime_natCast (n : Nat) : (Number.int n).IsTime :=
  ⟨rfl, by simp [Number.ltInt]⟩

theorem timeout_nonneg {ds : Option (List Char)} {n : Int} (h : timeout ds = .ok n) : 0 ≤ n := by
  cases ds with
  | none =>
    cases h
    decide
  | some ds =>
    unfold timeout at h
    simp only at h
    cases hn : number ds with
    | error e => rw [hn] at h; cases h
    | ok m =>
      rw [hn] at h
      cases h
      exact Int.natCast_nonneg m

theorem str_ne_empty {s : List Char} (h : s ≠ []) : str s ≠ "" := by
  intro he
  exact h (by simpa using congrArg String.toList he)

/-- What a directive does is such as a document may state, but for the anchor of an expectation. -/
theorem Directive.action_wellFormed {l : Line} {d : Directive} {a : Action} (hd : d.WellFormed)
    (h : d.action l = .ok a) : a.WellFormed ↔ a.Spelled := by
  have hs (hw : a.WellFormed) (hne : ∀ lb an t, a ≠ .expectVisible lb an t) :
      a.WellFormed ↔ a.Spelled :=
    iff_of_true hw fun lb an t he => absurd he (hne lb an t)
  cases d with
  | narration m => cases h; exact hs trivial (by simp)
  | goto k => cases h; exact hs (str_ne_empty hd) (by simp)
  | click lb an =>
    cases h
    exact hs ⟨Pattern.admits_of_form hd, by simp⟩ (by simp)
  | fill lb an source =>
    cases source with
    | value v => cases h; exact hs ⟨Pattern.admits_of_form hd, by simp, by simp, by simp⟩ (by simp)
    | variable_ n =>
      cases h
      refine hs ⟨Pattern.admits_of_form hd.1, by simp, ?_, by simp⟩ (by simp)
      rintro _ ⟨⟩
      exact Pattern.admits_of_form hd.2
  | waitForEvent lb e t =>
    obtain ⟨n, hn, h⟩ := bind_eq_ok.mp h
    cases h
    exact hs ⟨Pattern.admits_of_form hd, timeout_nonneg hn⟩ (by simp)
  | expectVisible lb an t =>
    obtain ⟨n, hn, h⟩ := bind_eq_ok.mp h
    cases h
    have ha : Pattern.anchor.admits (str an) = true ↔ isAnchor an = true := admits_anchor_iff hd
    simp [ActionOf.WellFormed, ActionOf.Spelled, ha, timeout_nonneg hn]
  | waitMs ds =>
    obtain ⟨n, hn, h⟩ := bind_eq_ok.mp h
    cases n with
    | zero => cases h
    | succ n =>
      cases h
      exact hs (show (1 : Int) ≤ ((n + 1 : Nat) : Int) by omega) (by simp)
  | screenshot n lb f => cases h; exact hs (Pattern.admits_of_form hd) (by simp)
  | annotate lb t i => cases h; exact hs (str_ne_empty hd) (by simp)
  | includeFragment name => cases h

namespace Modifier

def WellFormed : Modifier → Prop
  | capture _ n _ => n ≠ []
  | annotate i => i ≠ []
  | _ => True

theorem ne_nil_of_quoted? {s t : List Char} (h : quoted? s = some t) : t ≠ [] := by
  unfold quoted? at h
  split at h
  · split at h
    · split_ifs at h
      cases h
      simp
    · cases h
  · cases h

theorem capture?_wellFormed {s : List Char} {m : Modifier} (h : capture? s = some m) :
    m.WellFormed := by
  simp only [capture?, Option.bind_eq_bind, Option.bind_eq_some_iff] at h
  obtain ⟨r, -, ⟨moment, r₁⟩, -, ⟨name, r₂⟩, hn, h⟩ := h
  have hne := (run?_ne_nil hn).1
  split at h
  · cases h
    exact hne
  · simp only [Option.bind_eq_some_iff] at h
    obtain ⟨_, -, _, -, h⟩ := h
    cases h
    exact hne

theorem ofText?_wellFormed {s : List Char} {m : Modifier} (h : ofText? s = some m) :
    m.WellFormed := by
  obtain ⟨form, hf, hm⟩ := List.exists_of_findSome?_eq_some h
  simp only [forms, List.mem_cons, List.not_mem_nil, or_false] at hf
  rcases hf with rfl | rfl | rfl | rfl
  · simp only [preDelay?, Option.bind_eq_bind, Option.bind_eq_some_iff, Option.map_eq_map,
      Option.map_eq_some_iff] at hm
    obtain ⟨r, -, ds, -, rfl⟩ := hm
    trivial
  · simp only [narration?, Option.bind_eq_bind, Option.bind_eq_some_iff, Option.map_eq_map,
      Option.map_eq_some_iff] at hm
    obtain ⟨r, -, t, -, rfl⟩ := hm
    trivial
  · exact capture?_wellFormed hm
  · simp only [annotate?, Option.bind_eq_bind, Option.bind_eq_some_iff, Option.map_eq_map,
      Option.map_eq_some_iff] at hm
    obtain ⟨r, -, i, hi, rfl⟩ := hm
    exact ne_nil_of_quoted? hi

theorem apply_wellFormed {m : Modifier} {x y : Extras} (hm : m.WellFormed) (hx : x.WellFormed)
    (h : m.apply x = .ok y) : y.WellFormed := by
  obtain ⟨hp, hc, ha⟩ := hx
  cases m with
  | preDelay ds =>
    obtain ⟨n, -, h⟩ := bind_eq_ok.mp h
    cases h
    refine ⟨?_, hc, ha⟩
    rintro _ ⟨⟩
    exact isTime_natCast n
  | narration t => cases h; exact ⟨hp, hc, ha⟩
  | capture moment n f =>
    cases h
    refine ⟨hp, ?_, ha⟩
    rintro _ ⟨⟩
    exact str_ne_empty hm
  | annotate i =>
    cases h
    refine ⟨hp, hc, ?_⟩
    rintro _ ⟨⟩
    exact str_ne_empty hm

end Modifier

theorem modifiers_wellFormed {l : Line} {seen cs : List (List Char)} {x x' : Extras}
    (hx : x.WellFormed) (h : modifiers l seen x cs = .ok x') : x'.WellFormed := by
  induction cs generalizing seen x with
  | nil =>
    cases h
    exact hx
  | cons c cs ih =>
    unfold modifiers at h
    simp only at h
    split_ifs at h
    split at h
    · cases h
    · next m hm =>
      obtain ⟨y, hy, h⟩ := bind_eq_ok.mp h
      exact ih (Modifier.apply_wellFormed (Modifier.ofText?_wellFormed hm) hx hy) h

theorem parseLine_wellFormed_iff {l : Line} {s : Step} (h : parseLine l = .ok s) :
    s.WellFormed ↔ s.action.Spelled := by
  obtain ⟨base, rest, d, -, hd, ha, hx⟩ := parseLine_ok h
  have hxw : s.extras.WellFormed := modifiers_wellFormed ⟨by simp, by simp, by simp⟩ hx
  rw [← Directive.action_wellFormed (Directive.ofText?_wellFormed hd) ha]
  exact and_iff_left hxw

end Guide

end Walkthrough
