import Walkthrough.Proofs.Guide.Format
import Walkthrough.Proofs.Guide.Modifier
/-!
Labels: what is found between white space and the parts that a form has behind a label. The shortest
label that leaves room for the parts is taken, whatever the white space in front of it; only where
there is none does a character of the white space stand for it.
-/

namespace Walkthrough

namespace Text

theorem getLast?_trim (s : List Char) : ∀ c ∈ (trim s).getLast?, isBlank c = false := by
  intro c hc
  rw [trim, strip, stripEnd, List.getLast?_reverse] at hc
  have hnot := List.head?_dropWhile_not isBlank (stripStart isBlank s).reverse
  rw [hc] at hnot
  exact hnot

/-- Nothing is cut off a text exactly if there is no white space at its ends. -/
theorem trim_eq_self_iff {s : List Char} : trim s = s ↔
    (∀ c ∈ s.head?, isBlank c = false) ∧ ∀ c ∈ s.getLast?, isBlank c = false := by
  refine ⟨fun h => ⟨fun c hc => ?_, ?_⟩, fun h => trim_of_ends h.1 h.2⟩
  · rw [← h, head?_trim_eq] at hc
    simpa using List.find?_some hc
  · rw [← h]
    exact getLast?_trim s

theorem trim_trim (s : List Char) : trim (trim s) = trim s := by
  refine trim_eq_self_iff.mpr ⟨fun c hc => ?_, getLast?_trim s⟩
  rw [head?_trim_eq] at hc
  simpa using List.find?_some hc

theorem trim_infix (s : List Char) : trim s <:+: s :=
  (List.rdropWhile_prefix isBlank _).isInfix.trans (List.dropWhile_suffix isBlank).isInfix

end Text

namespace Guide

open Text (isBlank)

/-- White space, at least one character of it. -/
def IsGap (w : List Char) : Prop := w ≠ [] ∧ ∀ c ∈ w, isBlank c = true

theorem isGap_blank : IsGap [' '] :=
  ⟨List.cons_ne_nil _ _, List.forall_mem_singleton.mpr rfl⟩

/-- A text does not begin with white space. -/
def Unblank (r : List Char) : Prop := ∀ c ∈ r.head?, isBlank c = false

/-- White space and what follows it can be told apart in one way only. -/
theorem gap_unique {w v r t : List Char} (h : w ++ r = v ++ t) (hw : ∀ c ∈ w, isBlank c = true)
    (hv : ∀ c ∈ v, isBlank c = true) (hr : Unblank r) (ht : Unblank t) : w = v ∧ r = t := by
  constructor
  · rw [← Text.takeWhile_append_of_head? hw hr, h, Text.takeWhile_append_of_head? hv ht]
  · rw [← Text.dropWhile_append_of_head? hw hr, h, Text.dropWhile_append_of_head? hv ht]

/-- Every text is white space, if any, and a text that does not begin with some. -/
theorem exists_gap (s : List Char) :
    ∃ w r, s = w ++ r ∧ (∀ c ∈ w, isBlank c = true) ∧ Unblank r := Text.exists_run isBlank s

theorem afterBlanks?_gap {w r : List Char} (hw : IsGap w) (hr : Unblank r) :
    afterBlanks? (w ++ r) = some r := by
  obtain ⟨hn, hw⟩ := hw
  obtain ⟨c, w, rfl⟩ := List.exists_cons_of_ne_nil hn
  rw [List.cons_append, afterBlanks?, if_pos (hw c List.mem_cons_self),
    Text.dropWhile_append_of_head? (fun d hd => hw d (List.mem_cons_of_mem c hd)) hr]

theorem afterBlanks?_of_unblank {r : List Char} (hr : Unblank r) : afterBlanks? r = none := by
  cases r with
  | nil => rfl
  | cons c r => simp [afterBlanks?, hr c rfl]

theorem afterBlanks?_eq_some_iff {s r : List Char} :
    afterBlanks? s = some r ↔ ∃ w, IsGap w ∧ s = w ++ r ∧ Unblank r := by
  constructor
  · intro h
    obtain ⟨w, t, rfl, hw, ht⟩ := exists_gap s
    by_cases hn : w = []
    · subst hn
      rw [List.nil_append, afterBlanks?_of_unblank ht] at h
      cases h
    · rw [afterBlanks?_gap ⟨hn, hw⟩ ht] at h
      cases h
      exact ⟨w, ⟨hn, hw⟩, rfl, ht⟩
  · rintro ⟨w, hw, rfl, hr⟩
    exact afterBlanks?_gap hw hr

/-- A text that can be a label where white space is in front of it. -/
def Labels (l : List Char) : Prop := l ≠ [] ∧ Unblank l ∧ '\n' ∉ l

theorem label?_eq_some_iff {front l : List Char} :
    label? front = some l ↔ ∃ w, IsGap w ∧ front = w ++ l ∧ Labels l := by
  obtain ⟨w, r, rfl, hw, hr⟩ := exists_gap front
  have hlabel : label? (w ++ r) = some l ↔ IsGap w ∧ r = l ∧ Labels l := by
    by_cases hn : w = []
    · subst hn
      rw [label?, List.nil_append, afterBlanks?_of_unblank hr]
      simp [IsGap]
    · rw [label?, afterBlanks?_gap ⟨hn, hw⟩ hr, Option.getD_some]
      cases r with
      | nil =>
        constructor
        · rintro ⟨⟩
        · rintro ⟨-, rfl, h, -⟩
          exact absurd rfl h
      | cons c r =>
        simp only [List.contains_eq_mem, decide_eq_true_eq]
        constructor
        · intro h
          split_ifs at h with hline
          cases h
          exact ⟨⟨hn, hw⟩, rfl, by simp, hr, hline⟩
        · rintro ⟨-, rfl, -, -, hline⟩
          rw [if_neg hline]
  rw [hlabel]
  constructor
  · rintro ⟨hgap, rfl, hl⟩
    exact ⟨w, hgap, rfl, hl⟩
  · rintro ⟨v, hv, he, hl⟩
    obtain ⟨rfl, rfl⟩ := gap_unique he hw hv.2 hr hl.2.1
    exact ⟨hv, rfl, hl⟩

theorem blankLabel?_spec {front l : List Char} (h : blankLabel? front = some l) :
    ∃ w c, IsGap w ∧ front = w ++ [c] ∧ isBlank c = true ∧ c ≠ '\n' ∧ l = [c] := by
  unfold blankLabel? at h
  split at h
  · next c d back hf =>
    have hfront : front = (d :: back).reverse ++ [c] := by
      rw [← List.reverse_cons, ← hf, List.reverse_reverse]
    split_ifs at h with hc
    cases h
    rw [Bool.and_eq_true, List.all_eq_true, bne_iff_ne] at hc
    refine ⟨(d :: back).reverse, c, ⟨by simp, fun e he => hc.1 e ?_⟩, hfront, hc.1 c ?_, hc.2, rfl⟩
    · rw [hfront]
      exact List.mem_append_left _ he
    · rw [hfront]
      exact List.mem_append_right _ List.mem_cons_self
  · cases h

variable {α β : Type} {form : List Char → Option α}

/-- What is picked of the cuts of a text is picked of the shortest front from which something can
be. -/
theorem findSome?_cuts {pick : List Char × α → Option β} {before s : List Char} {y : β} :
    (cuts form before s).findSome? pick = some y ↔
      ∃ x rest a, s = x ++ rest ∧ form rest = some a ∧ pick (before.reverse ++ x, a) = some y ∧
        ∀ x' z a', x = x' ++ z → z ≠ [] → form (z ++ rest) = some a' →
          pick (before.reverse ++ x', a') = none := by
  induction s generalizing before with
  | nil =>
    constructor
    · intro h
      obtain ⟨a, ha, hp⟩ : ∃ a, form [] = some a ∧ pick (before.reverse, a) = some y := by
        cases hf : form [] with
        | none => simp [cuts, hf] at h
        | some a => exact ⟨a, rfl, by simpa [cuts, hf] using h⟩
      refine ⟨[], [], a, rfl, ha, by simpa using hp, fun x' z a' hx hz => ?_⟩
      exact absurd (List.append_eq_nil_iff.mp hx.symm).2 hz
    · rintro ⟨x, rest, a, hs, ha, hp, -⟩
      obtain ⟨rfl, rfl⟩ := List.append_eq_nil_iff.mp hs.symm
      simpa [cuts, ha] using hp
  | cons c s ih =>
    -- the front of nothing, and the others, which all begin with the first character
    have hcuts : (cuts form before (c :: s)).findSome? pick =
        ((form (c :: s)).bind fun a => pick (before.reverse, a)).or
          ((cuts form (c :: before) s).findSome? pick) := by
      rw [cuts]
      cases form (c :: s) with
      | none => rfl
      | some a =>
        rw [List.findSome?_cons, Option.bind_some]
        cases pick (before.reverse, a) <;> rfl
    have hfront (x : List Char) : (c :: before).reverse ++ x = before.reverse ++ c :: x := by simp
    simp only [hcuts, Option.or_eq_some_iff, ih, hfront, Option.bind_eq_some_iff,
      Option.bind_eq_none_iff]
    constructor
    · rintro (⟨a, ha, hp⟩ | ⟨hnone, x, rest, a, rfl, ha, hp, hfirst⟩)
      · refine ⟨[], c :: s, a, rfl, ha, by simpa using hp, fun x' z a' hx hz => ?_⟩
        exact absurd (List.append_eq_nil_iff.mp hx.symm).2 hz
      · refine ⟨c :: x, rest, a, rfl, ha, hp, fun x' z a' hx hz hform => ?_⟩
        cases x' with
        | nil =>
          rw [List.nil_append] at hx
          subst hx
          simpa using hnone a' hform
        | cons d x' =>
          obtain ⟨rfl, rfl⟩ := List.cons.inj hx
          exact hfirst x' z a' rfl hz hform
    · rintro ⟨x, rest, a, hs, ha, hp, hfirst⟩
      cases x with
      | nil =>
        rw [List.nil_append] at hs
        subst hs
        exact .inl ⟨a, ha, by simpa using hp⟩
      | cons d x =>
        obtain ⟨rfl, rfl⟩ := List.cons.inj hs
        refine .inr ⟨fun a' ha' => ?_, x, rest, a, rfl, ha, hp, fun x' z a' hx hz => ?_⟩
        · simpa using hfirst [] (c :: x) a' rfl (by simp) ha'
        · exact hfirst (c :: x') z a' (by rw [hx, List.cons_append]) hz

/-- A text opens with a label that something of a form follows, and with none that is shorter. -/
def OpensWith (form : List Char → Option α) (r l : List Char) (a : α) : Prop :=
  ∃ rest, r = l ++ rest ∧ Labels l ∧ form rest = some a ∧
    ∀ x y, l = x ++ y → x ≠ [] → y ≠ [] → form (y ++ rest) = none

/-- The label found behind white space is the one that the text behind it opens with. -/
theorem findSome?_label_iff {w r l : List Char} {a : α} (hw : IsGap w) (hr : Unblank r) :
    ((cuts form [] (w ++ r)).findSome? fun (front, a) => (label? front).map (·, a)) = some (l, a) ↔
      OpensWith form r l a := by
  rw [findSome?_cuts]
  simp only [List.reverse_nil, List.nil_append, Option.map_eq_some_iff, Option.map_eq_none_iff,
    Prod.mk.injEq]
  constructor
  · rintro ⟨x, rest, a, hs, ha, ⟨l, hl, rfl, rfl⟩, hfirst⟩
    obtain ⟨v, hv, rfl, hlabels⟩ := label?_eq_some_iff.mp hl
    have hunblank : Unblank (l ++ rest) := by
      obtain ⟨c, l, rfl⟩ := List.exists_cons_of_ne_nil hlabels.1
      exact hlabels.2.1
    rw [List.append_assoc] at hs
    obtain ⟨rfl, rfl⟩ := gap_unique hs hw.2 hv.2 hr hunblank
    refine ⟨rest, rfl, hlabels, ha, fun x y hxy hx hy => ?_⟩
    subst hxy
    have hshorter : label? (w ++ x) = some x := by
      refine label?_eq_some_iff.mpr ⟨w, hw, rfl, hx, ?_, ?_⟩
      · obtain ⟨c, x, rfl⟩ := List.exists_cons_of_ne_nil hx
        exact hlabels.2.1
      · exact fun hline => hlabels.2.2 (List.mem_append_left y hline)
    by_contra hform
    obtain ⟨a', ha'⟩ := Option.ne_none_iff_exists'.mp hform
    rw [hfirst (w ++ x) y a' (by simp) hy ha'] at hshorter
    cases hshorter
  · rintro ⟨rest, rfl, hlabels, ha, hfirst⟩
    refine ⟨w ++ l, rest, a, by simp, ha, ⟨l, label?_eq_some_iff.mpr ⟨w, hw, rfl, hlabels⟩, rfl,
      rfl⟩, fun x' z a' hx hz hform => ?_⟩
    by_contra hlabel
    obtain ⟨l', hl'⟩ := Option.ne_none_iff_exists'.mp hlabel
    obtain ⟨v, hv, rfl, hlabels'⟩ := label?_eq_some_iff.mp hl'
    have hunblank : Unblank (l' ++ z) := by
      obtain ⟨c, l', rfl⟩ := List.exists_cons_of_ne_nil hlabels'.1
      exact hlabels'.2.1
    rw [List.append_assoc] at hx
    obtain ⟨rfl, rfl⟩ := gap_unique hx hw.2 hv.2 hlabels.2.1 hunblank
    rw [hfirst l' z rfl hlabels'.1 hz] at hform
    cases hform

/-- The label that a text opens with is found behind any white space. -/
theorem labelled_of_opensWith {w r l : List Char} {a : α} (hw : IsGap w) (hr : Unblank r)
    (h : OpensWith form r l a) : labelled form (w ++ r) = some (l, a) := by
  unfold labelled
  dsimp only
  rw [(findSome?_label_iff hw hr).mpr h]

/-- White space in which a character stands behind others has two characters or more. -/
theorem two_le_length_of_gap {w r v t : List Char} {c : Char} (hw : ∀ d ∈ w, isBlank d = true)
    (hr : Unblank r) (hv : IsGap v) (hc : isBlank c = true) (he : w ++ r = v ++ c :: t) :
    2 ≤ w.length ∧ c ∈ w := by
  obtain ⟨u, t', rfl, hu, ht⟩ := exists_gap t
  have hblank : ∀ d ∈ v ++ c :: u, isBlank d = true := by
    intro d hd
    rw [List.mem_append, List.mem_cons] at hd
    obtain hd | rfl | hd := hd
    · exact hv.2 d hd
    · exact hc
    · exact hu d hd
  obtain ⟨rfl, -⟩ := gap_unique (by rw [he]; simp : w ++ r = (v ++ c :: u) ++ t') hw hblank hr ht
  have hlength := List.length_pos_iff.mpr hv.1
  refine ⟨?_, List.mem_append_right v List.mem_cons_self⟩
  rw [List.length_append, List.length_cons]
  omega

/-- Where no label is, it takes two characters of white space for one of them to stand for it. -/
theorem labelled_cases {s l : List Char} {a : α} (h : labelled form s = some (l, a)) :
    ∃ w r, IsGap w ∧ Unblank r ∧ s = w ++ r ∧
      (OpensWith form r l a ∨ (∀ l a, ¬OpensWith form r l a) ∧ 2 ≤ w.length ∧ (∃ c ∈ w, l = [c]) ∧
        ∃ v t, s = v ++ t ∧ (∀ c ∈ v, isBlank c = true) ∧ form t = some a) := by
  obtain ⟨w, r, rfl, hw, hr⟩ := exists_gap s
  unfold labelled at h
  dsimp only at h
  split at h
  · next found hf =>
    cases h
    obtain ⟨x, rest, a', hs, -, hp, -⟩ := findSome?_cuts.mp hf
    obtain ⟨l', hl, -⟩ := Option.map_eq_some_iff.mp hp
    obtain ⟨v, hv, hx, -⟩ := label?_eq_some_iff.mp hl
    have hwgap : IsGap w := by
      refine ⟨?_, hw⟩
      rintro rfl
      obtain ⟨c, v, rfl⟩ := List.exists_cons_of_ne_nil hv.1
      rw [List.nil_append] at hs
      subst hs
      rw [List.reverse_nil, List.nil_append] at hx
      subst hx
      have hblank := hr c rfl
      rw [hv.2 c List.mem_cons_self] at hblank
      cases hblank
    exact ⟨w, r, hwgap, hr, rfl, .inl ((findSome?_label_iff hwgap hr).mp hf)⟩
  · next hf =>
    obtain ⟨⟨front, a'⟩, hmem, hp⟩ := List.exists_of_findSome?_eq_some h
    obtain ⟨l', hl, he⟩ := Option.map_eq_some_iff.mp hp
    cases he
    obtain ⟨v, c, hv, rfl, hc, -, rfl⟩ := blankLabel?_spec hl
    obtain ⟨x, t, hs, rfl, hform⟩ := mem_cuts (List.mem_reverse.mp hmem)
    obtain ⟨htwo, hcw⟩ := two_le_length_of_gap hw hr hv hc (by simpa using hs)
    have hwgap : IsGap w := ⟨List.ne_nil_of_mem hcw, hw⟩
    refine ⟨w, r, hwgap, hr, rfl, .inr ⟨fun l' a'' ho => ?_, htwo, ⟨c, hcw, rfl⟩, v ++ [c], t, hs,
      fun d hd => ?_, hform⟩⟩
    · have hfound := (findSome?_label_iff hwgap hr).mpr ho
      rw [hf] at hfound
      cases hfound
    · rw [List.mem_append, List.mem_singleton] at hd
      obtain hd | rfl := hd
      · exact hv.2 d hd
      · exact hc

/-- White space in front of something of the form makes no difference. -/
def SkipsBlanks (form : List Char → Option α) : Prop :=
  ∀ c s a, isBlank c = true → form s = some a → form (c :: s) = some a

theorem SkipsBlanks.append (hf : SkipsBlanks form) {w s : List Char} {a : α}
    (hw : ∀ c ∈ w, isBlank c = true) (h : form s = some a) : form (w ++ s) = some a := by
  induction w with
  | nil => exact h
  | cons c w ih =>
    exact hf c _ a (hw c List.mem_cons_self) (ih fun d hd => hw d (List.mem_cons_of_mem c hd))

/-- White space at the end of a label would be white space in front of what follows. -/
theorem OpensWith.trim {r l : List Char} {a : α} (h : OpensWith form r l a)
    (hf : SkipsBlanks form) : Text.trim l = l := by
  obtain ⟨rest, -, ⟨hn, hhead, -⟩, ha, hfirst⟩ := h
  refine Text.trim_eq_self_iff.mpr ⟨hhead, fun c hc => ?_⟩
  obtain ⟨x, rfl⟩ := List.getLast?_eq_some_iff.mp hc
  rw [← Bool.not_eq_true]
  intro hblank
  have hx : x ≠ [] := by
    rintro rfl
    rw [hhead c rfl] at hblank
    cases hblank
  have hlonger : form ([c] ++ rest) = some a := hf c rest a hblank ha
  rw [hfirst x [c] rfl hx (by simp)] at hlonger
  cases hlonger

/-- A label is trimmed, and the same with one character of the white space in front of it; or it is
a character of white space, and there is none with one character of it. -/
theorem labelled_tight {s l : List Char} {a : α} (hf : SkipsBlanks form)
    (h : labelled form s = some (l, a)) :
    ∃ w c r, IsGap (w ++ [c]) ∧ Unblank r ∧ s = w ++ c :: r ∧
      (l ≠ [] ∧ Text.trim l = l ∧ labelled form (c :: r) = some (l, a) ∨
        w ≠ [] ∧ (∃ b ∈ w ++ [c], l = [b]) ∧ form s = some a ∧ labelled form (c :: r) = none) := by
  obtain ⟨w, r, hw, hr, rfl, hcases⟩ := labelled_cases h
  obtain ⟨w, c, rfl⟩ : ∃ v c, w = v ++ [c] := ⟨_, _, (List.dropLast_concat_getLast hw.1).symm⟩
  have hc : IsGap [c] :=
    ⟨by simp, fun d hd => hw.2 d (List.mem_append_right w hd)⟩
  refine ⟨w, c, r, hw, hr, by simp, ?_⟩
  obtain ho | ⟨hnone, htwo, ⟨b, hb, rfl⟩, v, t, hs, hv, ha⟩ := hcases
  · obtain ⟨-, -, hl, -⟩ := id ho
    exact .inl ⟨hl.1, ho.trim hf, labelled_of_opensWith hc hr ho⟩
  · refine .inr ⟨?_, ⟨b, hb, rfl⟩, ?_, ?_⟩
    · rintro rfl
      simp at htwo
    · rw [hs]
      exact hf.append hv ha
    · rw [Option.eq_none_iff_forall_ne_some]
      rintro ⟨l', a'⟩ h'
      obtain ⟨v, t, hv, ht, he, ho | ⟨-, htwo', -⟩⟩ := labelled_cases h'
      · obtain ⟨rfl, rfl⟩ := gap_unique (w := [c]) he hc.2 hv.2 hr ht
        exact hnone l' a' ho
      · obtain ⟨rfl, -⟩ := gap_unique (w := [c]) he hc.2 hv.2 hr ht
        simp at htwo'

end Guide

end Walkthrough
