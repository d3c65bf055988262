import Walkthrough.Proofs.Guide.Label
/-!
Keywords: the words a directive begins with decide which form reads it, and what the form makes of
the rest.
-/

namespace Walkthrough.Guide

open Text (isBlank)

theorem after?_eq_some_iff {word : String} {s r : List Char} :
    after? word s = some r ↔ s = word.toList ++ r := by
  constructor
  · intro h
    unfold after? at h
    split_ifs at h with hp
    cases h
    obtain ⟨t, rfl⟩ := List.isPrefixOf_iff_prefix.mp hp
    rw [String.length, List.drop_left]
  · rintro rfl
    exact after?_append word r

/-- A word that ends in a colon does not stand where a text without one ends before white space. -/
theorem after?_of_no_colon {word : String} {n z r : List Char} {b : Char}
    (hw : word.toList = n ++ [':']) (hn : n.all (!isBlank ·) = true) (hz : ':' ∉ z)
    (hb : isBlank b = true) : after? word (z ++ b :: r) = none := by
  rw [Option.eq_none_iff_forall_ne_some]
  intro t h
  have hcolon : b ≠ ':' := by
    rintro rfl
    cases hb
  rw [after?_eq_some_iff, hw, List.append_assoc, List.singleton_append,
    List.append_eq_append_iff] at h
  obtain ⟨x, rfl, he⟩ | ⟨x, rfl, he⟩ := h
  · cases x with
    | nil => exact hcolon (List.cons.inj he).1
    | cons d x =>
      obtain ⟨rfl, -⟩ := List.cons.inj he
      have hplain := List.all_eq_true.mp hn b (List.mem_append_right z List.mem_cons_self)
      rw [hb] at hplain
      cases hplain
  · cases x with
    | nil => exact hcolon (List.cons.inj he).1.symm
    | cons d x =>
      obtain ⟨rfl, -⟩ := List.cons.inj he
      exact hz (List.mem_append_right n List.mem_cons_self)

namespace Directive

/-- The label that a directive states. -/
def label : Directive → Option (List Char)
  | click l _ => some l
  | fill l _ _ => some l
  | waitForEvent l _ _ => some l
  | expectVisible l _ _ => some l
  | screenshot _ l _ => l
  | annotate l _ _ => l
  | _ => none

/-- The words that stand at the start of one form only. -/
def keywords : List (String × (List Char → Option Directive)) :=
  [("Narration:", narration?), ("Say:", narration?), ("Goto", goto?), ("Click", click?),
    ("Fill", fill?), ("Screenshot", screenshot?), ("Snapshot", screenshot?),
    ("Annotate", annotate?), ("Include", includeFragment?)]

/-- A text that begins with the word of a form is read by that form or not at all. -/
theorem ofText?_keyword {k : String} {f : List Char → Option Directive} (h : (k, f) ∈ keywords)
    (s : List Char) : ofText? (k.toList ++ s) = f (k.toList ++ s) := by
  simp only [keywords, List.mem_cons, List.not_mem_nil, or_false, Prod.mk.injEq] at h
  simp only [ofText?, forms, List.findSome?_cons]
  rcases h with ⟨rfl, rfl⟩ | ⟨rfl, rfl⟩ | ⟨rfl, rfl⟩ | ⟨rfl, rfl⟩ | ⟨rfl, rfl⟩ | ⟨rfl, rfl⟩ |
    ⟨rfl, rfl⟩ | ⟨rfl, rfl⟩ | ⟨rfl, rfl⟩
  · cases narration? ("Narration:".toList ++ s) <;> rfl
  · cases narration? ("Say:".toList ++ s) <;> rfl
  · cases goto? ("Goto".toList ++ s) <;> rfl
  · cases click? ("Click".toList ++ s) <;> rfl
  · cases fill? ("Fill".toList ++ s) <;> rfl
  · cases screenshot? ("Screenshot".toList ++ s) <;> rfl
  · cases screenshot? ("Snapshot".toList ++ s) <;> rfl
  · cases annotate? ("Annotate".toList ++ s) <;> rfl
  · cases includeFragment? ("Include".toList ++ s) <;> rfl

/-- Two forms begin with the same word. -/
theorem ofText?_wait (s : List Char) : ofText? ("Wait".toList ++ s) =
    (waitForEvent? ("Wait".toList ++ s)).or (waitMs? ("Wait".toList ++ s)) := by
  simp only [ofText?, forms, List.findSome?_cons]
  cases waitForEvent? ("Wait".toList ++ s) with
  | some d => rfl
  | none => cases waitMs? ("Wait".toList ++ s) <;> rfl

theorem toLower_of_isBlank {c : Char} (h : isBlank c = true) : c.toLower = c := by
  unfold Char.toLower
  split
  · next hc =>
    have hc' : 65 ≤ c.toNat ∧ c.toNat ≤ 90 := hc
    simp only [isBlank, Bool.or_eq_true, Bool.and_eq_true, decide_eq_true_eq, beq_iff_eq] at h
    omega
  · rfl

/-- White space is no case of a letter. -/
theorem isBlank_of_sameLetter {fold c : Char} (h : sameLetter fold c = true)
    (hf : isBlank fold = false) : isBlank c = false := by
  rw [← Bool.not_eq_true]
  intro hc
  simp only [sameLetter, toLower_of_isBlank hc, Bool.or_eq_true, Bool.and_eq_true, beq_iff_eq] at h
  obtain ((rfl | ⟨-, rfl | rfl⟩) | ⟨-, rfl⟩) | ⟨-, rfl⟩ := h
  · rw [hc] at hf
    cases hf
  all_goals cases hc

theorem afterAnyCase?_append {word e : List Char} (h : afterAnyCase? word e = some [])
    (s : List Char) : afterAnyCase? word (e ++ s) = some s := by
  fun_induction afterAnyCase? word e with
  | case1 e =>
    cases h
    cases s <;> rfl
  | case2 w ws c e hc ih =>
    rw [List.cons_append, afterAnyCase?, if_pos hc]
    exact ih h
  | case3 => cases h
  | case4 => cases h

theorem exists_of_afterAnyCase? {word s r : List Char} (h : afterAnyCase? word s = some r) :
    ∃ e, s = e ++ r ∧ afterAnyCase? word e = some [] := by
  fun_induction afterAnyCase? word s with
  | case1 s =>
    cases h
    exact ⟨[], rfl, rfl⟩
  | case2 w ws c s hc ih =>
    obtain ⟨e, rfl, he⟩ := ih h
    refine ⟨c :: e, rfl, ?_⟩
    rw [afterAnyCase?, if_pos hc]
    exact he
  | case3 => cases h
  | case4 => cases h

theorem unblank_of_afterAnyCase? {w : Char} {ws e : List Char} (hw : isBlank w = false)
    (h : afterAnyCase? (w :: ws) e = some []) (s : List Char) : Unblank (e ++ s) := by
  cases e with
  | nil => cases h
  | cons c e =>
    rw [afterAnyCase?] at h
    split_ifs at h with hc
    rintro _ ⟨⟩
    exact isBlank_of_sameLetter hc hw

/-- Words that a label can follow. -/
inductive TakesLabel : List Char → Prop
  | click : TakesLabel "Click".toList
  | fill : TakesLabel "Fill".toList
  | waitFor {w : List Char} (hw : IsGap w) : TakesLabel ("Wait".toList ++ (w ++ "for".toList))
  | expectVisible {e w v : List Char} (he : afterAnyCase? "expect".toList e = some [])
    (hw : IsGap w) (hv : afterAnyCase? "visible".toList v = some []) : TakesLabel (e ++ (w ++ v))
  | screenshot : TakesLabel "Screenshot".toList
  | snapshot : TakesLabel "Snapshot".toList
  | annotate : TakesLabel "Annotate".toList

theorem ofText?_click (s : List Char) : ofText? ("Click".toList ++ s) =
    (labelled anchorToEnd? s).map fun p => click p.1 p.2 := by
  rw [ofText?_keyword (f := click?) (by simp [keywords]), click?, after?_append,
    Option.bind_eq_bind, Option.bind_some]
  cases labelled anchorToEnd? s <;> rfl

theorem ofText?_fill (s : List Char) : ofText? ("Fill".toList ++ s) =
    (labelled anchorAndSource? s).map fun p => fill p.1 p.2.1 p.2.2 := by
  rw [ofText?_keyword (f := fill?) (by simp [keywords]), fill?, after?_append, Option.bind_eq_bind,
    Option.bind_some]
  cases labelled anchorAndSource? s <;> rfl

theorem ofText?_waitFor {w : List Char} (hw : IsGap w) (s : List Char) :
    ofText? ("Wait".toList ++ (w ++ ("for".toList ++ s))) =
      (labelled (nameAndTimeout? isEvent (after? "timeout:")) s).map fun p =>
        waitForEvent p.1 p.2.1 p.2.2 := by
  have hfor : Unblank ("for".toList ++ s) := by
    rintro _ ⟨⟩
    rfl
  have hevent : waitForEvent? ("Wait".toList ++ (w ++ ("for".toList ++ s))) =
      (labelled (nameAndTimeout? isEvent (after? "timeout:")) s).map fun p =>
        waitForEvent p.1 p.2.1 p.2.2 := by
    simp only [waitForEvent?, after?_append, Option.bind_eq_bind, Option.bind_some,
      afterBlanks?_gap hw hfor]
    cases labelled (nameAndTimeout? isEvent (after? "timeout:")) s <;> rfl
  have hms : waitMs? ("Wait".toList ++ (w ++ ("for".toList ++ s))) = none := by
    simp only [waitMs?, after?_append, Option.bind_eq_bind, Option.bind_some,
      afterBlanks?_gap hw hfor]
    rfl
  rw [ofText?_wait, hevent, hms, Option.or_none]

theorem ofText?_expectVisible {e w v : List Char} (he : afterAnyCase? "expect".toList e = some [])
    (hw : IsGap w) (hv : afterAnyCase? "visible".toList v = some []) (s : List Char) :
    ofText? (e ++ (w ++ (v ++ s))) =
      (labelled (nameAndTimeout? isAnchorAnyCase (afterAnyCase? "timeout:".toList)) s).map fun p =>
        expectVisible p.1 p.2.1 p.2.2 := by
  have hform : expectVisible? (e ++ (w ++ (v ++ s))) =
      (labelled (nameAndTimeout? isAnchorAnyCase (afterAnyCase? "timeout:".toList)) s).map fun p =>
        expectVisible p.1 p.2.1 p.2.2 := by
    simp only [expectVisible?, afterAnyCase?_append he, Option.bind_eq_bind, Option.bind_some,
      afterBlanks?_gap hw (unblank_of_afterAnyCase? (by rfl) hv s), afterAnyCase?_append hv]
    cases labelled (nameAndTimeout? isAnchorAnyCase (afterAnyCase? "timeout:".toList)) s <;> rfl
  rw [← hform]
  cases e with
  | nil => cases he
  | cons c e =>
    have hc : sameLetter 'e' c = true := by
      by_contra hc
      simp [afterAnyCase?, hc] at he
    have hafter {w : String} {d : Char} (hd : w.toList.head? = some d)
        (hs : sameLetter 'e' d = false) (t : List Char) : after? w (c :: t) = none := by
      refine after?_of_head? hd rfl ?_
      rintro rfl
      rw [hc] at hs
      cases hs
    simp only [ofText?, forms, List.findSome?_cons, List.cons_append, narration?, messageAfter?,
      goto?, click?, fill?, waitForEvent?, waitMs?, screenshot?, annotate?, includeFragment?,
      hafter (w := "Narration:") (d := 'N') rfl rfl, hafter (w := "Say:") (d := 'S') rfl rfl,
      hafter (w := "Goto") (d := 'G') rfl rfl, hafter (w := "Click") (d := 'C') rfl rfl,
      hafter (w := "Fill") (d := 'F') rfl rfl, hafter (w := "Wait") (d := 'W') rfl rfl,
      hafter (w := "Screenshot") (d := 'S') rfl rfl,
      hafter (w := "Snapshot") (d := 'S') rfl rfl,
      hafter (w := "Annotate") (d := 'A') rfl rfl,
      hafter (w := "Include") (d := 'I') rfl rfl]
    cases expectVisible? (c :: (e ++ (w ++ (v ++ s)))) <;> rfl

/-- What a screenshot is read as behind its keyword. -/
def screenshotOf? (s : List Char) : Option Directive :=
  ((labelled nameAndFlag? s).map fun p => screenshot p.2.1 (some p.1) p.2.2).or
    ((nameAndFlag? s).map fun p => screenshot p.1 none p.2)

theorem ofText?_screenshot (s : List Char) :
    ofText? ("Screenshot".toList ++ s) = screenshotOf? s := by
  rw [ofText?_keyword (f := screenshot?) (by simp [keywords]), screenshot?, after?_append,
    screenshotOf?, Option.some_or, Option.bind_eq_bind, Option.bind_some]
  cases labelled nameAndFlag? s with
  | some p => rfl
  | none => cases nameAndFlag? s <;> rfl

theorem ofText?_snapshot (s : List Char) :
    ofText? ("Snapshot".toList ++ s) = screenshotOf? s := by
  have hother : after? "Screenshot" ("Snapshot".toList ++ s) = none := rfl
  rw [ofText?_keyword (f := screenshot?) (by simp [keywords]), screenshot?, hother, after?_append,
    screenshotOf?, Option.none_or, Option.bind_eq_bind, Option.bind_some]
  cases labelled nameAndFlag? s with
  | some p => rfl
  | none => cases nameAndFlag? s <;> rfl

theorem ofText?_annotate (s : List Char) : ofText? ("Annotate".toList ++ s) =
    ((targetAndInstructions? s).map fun p => annotate none p.1 p.2).or
      ((labelled targetAndInstructions? s).map fun p => annotate (some p.1) p.2.1 p.2.2) := by
  rw [ofText?_keyword (f := annotate?) (by simp [keywords]), annotate?, after?_append,
    Option.bind_eq_bind, Option.bind_some]
  cases targetAndInstructions? s with
  | some p => rfl
  | none => cases labelled targetAndInstructions? s <;> rfl

end Directive

end Walkthrough.Guide
