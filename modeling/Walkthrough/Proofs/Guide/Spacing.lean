import Walkthrough.Proofs.Guide.Keyword
import Walkthrough.Proofs.Guide.Modified
/-!
White space and labels. A label that a line is read with is there without any white space around it,
and is the same whatever the white space behind the keyword; but where no label is, two characters
of that white space or more make a label of one of them.
-/

namespace Walkthrough.Guide

open Text (isBlank)

section

variable {c : Char} (hc : isBlank c = true)

include hc

theorem parenthesized?_cons (form : List Char → Bool) (s : List Char) :
    parenthesized? form (c :: s) = parenthesized? form s := by
  rw [parenthesized?, parenthesized?, List.dropWhile_cons_of_pos hc]

theorem afterBlanks?_cons {s r : List Char} (h : afterBlanks? s = some r) :
    afterBlanks? (c :: s) = some r := by
  obtain ⟨w, hw, rfl, hr⟩ := afterBlanks?_eq_some_iff.mp h
  refine afterBlanks?_gap (w := c :: w) ⟨by simp, fun d hd => ?_⟩ hr
  obtain rfl | hd := List.mem_cons.mp hd
  · exact hc
  · exact hw.2 d hd

end

namespace Directive

theorem skipsBlanks_anchorToEnd? : SkipsBlanks anchorToEnd? := by
  intro c s a hc h
  rwa [anchorToEnd?, parenthesized?_cons hc]

theorem skipsBlanks_anchorAndSource? : SkipsBlanks anchorAndSource? := by
  intro c s a hc h
  rwa [anchorAndSource?, parenthesized?_cons hc]

theorem skipsBlanks_nameAndTimeout? (form : List Char → Bool)
    (word : List Char → Option (List Char)) : SkipsBlanks (nameAndTimeout? form word) := by
  intro c s a hc h
  rwa [nameAndTimeout?, parenthesized?_cons hc]

theorem skipsBlanks_nameAndFlag? : SkipsBlanks nameAndFlag? := by
  intro c s a hc h
  rw [nameAndFlag?] at h ⊢
  cases hs : afterBlanks? s with
  | none =>
    rw [hs] at h
    cases h
  | some r => rwa [afterBlanks?_cons hc hs, ← hs]

theorem skipsBlanks_targetAndInstructions? : SkipsBlanks targetAndInstructions? := by
  intro c s a hc h
  rw [targetAndInstructions?, instructions?] at h ⊢
  cases hs : afterBlanks? s with
  | none =>
    rw [hs] at h
    cases h
  | some r => rwa [afterBlanks?_cons hc hs, ← hs]

/-- A directive with a label begins with words that a label can follow. -/
theorem exists_takesLabel {s l : List Char} {d : Directive} (h : ofText? s = some d)
    (hl : d.label = some l) : ∃ k t, TakesLabel k ∧ s = k ++ t := by
  obtain ⟨form, hf, hd⟩ := List.exists_of_findSome?_eq_some h
  simp only [forms, List.mem_cons, List.not_mem_nil, or_false] at hf
  rcases hf with rfl | rfl | rfl | rfl | rfl | rfl | rfl | rfl | rfl | rfl
  · obtain ⟨m, -, rfl⟩ := Option.map_eq_some_iff.mp hd
    cases hl
  · simp only [goto?, Option.bind_eq_bind, Option.bind_eq_some_iff, Option.map_eq_map,
      Option.map_eq_some_iff] at hd
    obtain ⟨-, -, -, -, -, -, k, -, rfl⟩ := hd
    cases hl
  · obtain ⟨t, ht, -⟩ := Option.bind_eq_some_iff.mp hd
    exact ⟨_, t, .click, after?_eq_some_iff.mp ht⟩
  · obtain ⟨t, ht, -⟩ := Option.bind_eq_some_iff.mp hd
    exact ⟨_, t, .fill, after?_eq_some_iff.mp ht⟩
  · simp only [waitForEvent?, Option.bind_eq_bind, Option.bind_eq_some_iff] at hd
    obtain ⟨r₁, h₁, r₂, h₂, r₃, h₃, -⟩ := hd
    obtain ⟨w, hw, rfl, -⟩ := afterBlanks?_eq_some_iff.mp h₂
    rw [after?_eq_some_iff] at h₁ h₃
    exact ⟨_, r₃, .waitFor hw, by rw [h₁, h₃]; simp⟩
  · simp only [expectVisible?, Option.bind_eq_bind, Option.bind_eq_some_iff] at hd
    obtain ⟨r₁, h₁, r₂, h₂, r₃, h₃, -⟩ := hd
    obtain ⟨e, rfl, he⟩ := exists_of_afterAnyCase? h₁
    obtain ⟨w, hw, rfl, -⟩ := afterBlanks?_eq_some_iff.mp h₂
    obtain ⟨v, rfl, hv⟩ := exists_of_afterAnyCase? h₃
    exact ⟨_, r₃, .expectVisible he hw hv, by simp⟩
  · simp only [waitMs?, Option.bind_eq_bind, Option.bind_eq_some_iff] at hd
    obtain ⟨-, -, -, -, p, -, hd⟩ := hd
    split_ifs at hd
    cases hd
    cases hl
  · obtain ⟨t, ht, -⟩ := Option.bind_eq_some_iff.mp hd
    rcases Option.or_eq_some_iff.mp ht with ht | ⟨-, ht⟩
    · exact ⟨_, t, .screenshot, after?_eq_some_iff.mp ht⟩
    · exact ⟨_, t, .snapshot, after?_eq_some_iff.mp ht⟩
  · obtain ⟨t, ht, -⟩ := Option.bind_eq_some_iff.mp hd
    exact ⟨_, t, .annotate, after?_eq_some_iff.mp ht⟩
  · simp only [includeFragment?, Option.bind_eq_bind, Option.bind_eq_some_iff, Option.map_eq_map,
      Option.map_eq_some_iff] at hd
    obtain ⟨-, -, -, -, -, -, n, -, rfl⟩ := hd
    cases hl

/-- A label that stands behind words `k` is trimmed and the same with one character of the white
space; or it is a character of the white space, and with one there is no label. -/
def Tight (k t l : List Char) (d : Directive) : Prop :=
  ∃ w c r, IsGap (w ++ [c]) ∧ Unblank r ∧ t = w ++ c :: r ∧
    (l ≠ [] ∧ Text.trim l = l ∧ ofText? (k ++ c :: r) = some d ∨
      w ≠ [] ∧ (∃ b ∈ w ++ [c], l = [b]) ∧
        ∀ d', ofText? (k ++ c :: r) = some d' → ∃ n f, d' = screenshot n none f)

theorem tight_of_reads {α : Type} {form : List Char → Option α} (hf : SkipsBlanks form)
    {k t l : List Char} {d : Directive} {build : List Char × α → Directive}
    {bare : List Char → Option Directive}
    (hk : ∀ s, ofText? (k ++ s) = ((labelled form s).map build).or (bare s))
    (hbuild : ∀ p, (build p).label = some p.1)
    (hbare : ∀ s d', bare s = some d' → ∃ n f, d' = screenshot n none f)
    (h : ofText? (k ++ t) = some d) (hl : d.label = some l) : Tight k t l d := by
  rw [hk, Option.or_eq_some_iff] at h
  rcases h with h | ⟨-, h⟩
  · obtain ⟨⟨l', a⟩, hlabelled, rfl⟩ := Option.map_eq_some_iff.mp h
    obtain rfl : l' = l := Option.some.inj ((hbuild (l', a)).symm.trans hl)
    obtain ⟨w, c, r, hw, hr, rfl, hcases⟩ := labelled_tight hf hlabelled
    refine ⟨w, c, r, hw, hr, rfl, ?_⟩
    rcases hcases with ⟨hn, htrim, htight⟩ | ⟨hn, hblank, -, htight⟩
    · exact .inl ⟨hn, htrim, by rw [hk, htight]; rfl⟩
    · refine .inr ⟨hn, hblank, fun d' hd' => ?_⟩
      rw [hk, htight] at hd'
      exact hbare _ d' hd'
  · obtain ⟨n, f, rfl⟩ := hbare t d h
    cases hl

theorem tight_of_takesLabel {k t l : List Char} {d : Directive} (hk : TakesLabel k)
    (h : ofText? (k ++ t) = some d) (hl : d.label = some l) : Tight k t l d := by
  have hno : ∀ (s : List Char) (d' : Directive), (fun _ => none : List Char → Option Directive) s =
      some d' → ∃ n f, d' = screenshot n none f := by
    rintro s d' ⟨⟩
  have hname : ∀ (s : List Char) (d' : Directive),
      (nameAndFlag? s).map (fun p => screenshot p.1 none p.2) = some d' →
        ∃ n f, d' = screenshot n none f := by
    intro s d' hd'
    obtain ⟨p, -, rfl⟩ := Option.map_eq_some_iff.mp hd'
    exact ⟨_, _, rfl⟩
  cases hk with
  | click =>
    exact tight_of_reads skipsBlanks_anchorToEnd?
      (fun s => by rw [ofText?_click, Option.or_none]) (fun p => rfl) hno h hl
  | fill =>
    exact tight_of_reads skipsBlanks_anchorAndSource?
      (fun s => by rw [ofText?_fill, Option.or_none]) (fun p => rfl) hno h hl
  | waitFor hw =>
    exact tight_of_reads (skipsBlanks_nameAndTimeout? _ _) (fun s => by
      rw [List.append_assoc, List.append_assoc, ofText?_waitFor hw, Option.or_none])
      (fun p => rfl) hno h hl
  | expectVisible he hw hv =>
    exact tight_of_reads (skipsBlanks_nameAndTimeout? _ _) (fun s => by
      rw [List.append_assoc, List.append_assoc, ofText?_expectVisible he hw hv, Option.or_none])
      (fun p => rfl) hno h hl
  | screenshot =>
    exact tight_of_reads skipsBlanks_nameAndFlag? ofText?_screenshot (fun p => rfl) hname h hl
  | snapshot =>
    exact tight_of_reads skipsBlanks_nameAndFlag? ofText?_snapshot (fun p => rfl) hname h hl
  | annotate =>
    rw [ofText?_annotate, Option.or_eq_some_iff] at h
    rcases h with h | ⟨hnone, h⟩
    · obtain ⟨p, -, rfl⟩ := Option.map_eq_some_iff.mp h
      cases hl
    · rw [Option.map_eq_none_iff] at hnone
      obtain ⟨⟨l', a⟩, hlabelled, rfl⟩ := Option.map_eq_some_iff.mp h
      cases hl
      obtain ⟨w, c, r, hw, hr, rfl, hcases⟩ :=
        labelled_tight skipsBlanks_targetAndInstructions? hlabelled
      refine ⟨w, c, r, hw, hr, rfl, ?_⟩
      rcases hcases with ⟨hn, htrim, htight⟩ | ⟨-, -, hform, -⟩
      · refine .inl ⟨hn, htrim, ?_⟩
        have hbare : targetAndInstructions? (c :: r) = none := by
          rw [Option.eq_none_iff_forall_ne_some]
          intro a' ha'
          rw [skipsBlanks_targetAndInstructions?.append
            (fun d hd => hw.2 d (List.mem_append_left _ hd)) ha'] at hnone
          cases hnone
        rw [ofText?_annotate, hbare, htight]
        rfl
      · -- what has the form without a label is read without one
        rw [hform] at hnone
        cases hnone

theorem TakesLabel.ne_nil {k : List Char} (h : TakesLabel k) : k ≠ [] := by
  cases h with
  | expectVisible he hw hv =>
    rw [ne_eq, List.append_eq_nil_iff]
    rintro ⟨rfl, -⟩
    cases he
  | _ => simp

/-- An action states the label of its directive; a marking without one states an empty label. -/
theorem label_of_action {l : Line} {d : Directive} {a : Action} {label : String}
    (h : d.action l = .ok a) (hl : a.label? = some label) :
    (∃ lb, d.label = some lb ∧ label = str lb) ∨ label = "" ∧ a.kind = "annotate" := by
  cases d with
  | click lb an => cases h; cases hl; exact .inl ⟨lb, rfl, rfl⟩
  | fill lb an source => cases source <;> cases h <;> cases hl <;> exact .inl ⟨lb, rfl, rfl⟩
  | waitForEvent lb e t =>
    obtain ⟨n, -, h⟩ := bind_eq_ok.mp h
    cases h
    cases hl
    exact .inl ⟨lb, rfl, rfl⟩
  | expectVisible lb an t =>
    obtain ⟨n, -, h⟩ := bind_eq_ok.mp h
    cases h
    cases hl
    exact .inl ⟨lb, rfl, rfl⟩
  | waitMs ds =>
    obtain ⟨n, -, h⟩ := bind_eq_ok.mp h
    cases n with
    | zero => cases h
    | succ n =>
      cases h
      cases hl
  | screenshot n lb f =>
    cases h
    obtain ⟨lb, rfl, rfl⟩ := Option.map_eq_some_iff.mp hl
    exact .inl ⟨lb, rfl, rfl⟩
  | annotate lb t i =>
    cases h
    cases hl
    cases lb with
    | none => exact .inr ⟨rfl, rfl⟩
    | some lb => exact .inl ⟨lb, rfl, rfl⟩
  | includeFragment name => cases h
  | narration m => cases h; cases hl
  | goto key => cases h; cases hl

end Directive

open Directive (TakesLabel)

/-- The first clause of a line, if it is a directive, has no divider in it. -/
theorem no_divider_of_directive {s base : List Char} {rest : List (List Char)} {d : Directive}
    (hc : clauses s = base :: rest) (hd : Directive.ofText? base = some d) :
    ¬divider <:+: base ∧ Text.trim base = base := by
  obtain ⟨p, ps, hp, -⟩ := exists_piecesFrom [] false s
  rw [clauses, rawClauses, hp, List.map_cons] at hc
  obtain ⟨rfl, -⟩ := List.cons.inj hc
  rw [List.reverse_nil, List.nil_append] at hd ⊢
  exact ⟨fun hi => no_divider_of_piecesFrom hp (unquoted_of_directive hd)
    (hi.trans (Text.trim_infix p)), Text.trim_trim p⟩

/-- A directive stays a line by itself when white space behind its keyword is taken out. -/
theorem tight_line {k w r : List Char} {c : Char} (hk : k ≠ []) (hgap : IsGap (w ++ [c]))
    (hb : ¬divider <:+: k ++ (w ++ c :: r))
    (ht : Text.trim (k ++ (w ++ c :: r)) = k ++ (w ++ c :: r)) :
    ¬divider <:+: k ++ c :: r ∧ Text.trim (k ++ c :: r) = k ++ c :: r := by
  have hc : isBlank c = true := hgap.2 c (List.mem_append_right w List.mem_cons_self)
  have hfront : ¬divider <:+: k := fun hi => hb (hi.trans (List.prefix_append k _).isInfix)
  have hback : ¬divider <:+: c :: r :=
    fun hi => hb (hi.trans (List.IsSuffix.isInfix ⟨k ++ w, by simp⟩))
  constructor
  · intro hi
    rcases List.infix_append_iff.mp hi with hi | hi | ⟨x, y, he, hx, hy⟩
    · exact hfront hi
    · exact hback hi
    · -- a divider that begins in the keyword would end in white space
      rcases x with - | ⟨a, - | ⟨b, x⟩⟩
      · exact hback (he ▸ hy.isInfix)
      · obtain ⟨-, rfl⟩ := List.cons.inj he
        obtain ⟨rfl, -⟩ := List.cons_prefix_cons.mp hy
        cases hc
      · obtain ⟨rfl, rfl, rfl, -⟩ : ' ' = a ∧ '|' = b ∧ x = [] ∧ y = [] := by
          simpa [divider] using he
        exact hfront hx.isInfix
  · rw [Text.trim_eq_self_iff] at ht ⊢
    obtain ⟨a, k, rfl⟩ := List.exists_cons_of_ne_nil hk
    refine ⟨ht.1, fun d hd => ?_⟩
    cases hr : r.getLast? with
    | none =>
      rw [List.getLast?_eq_none_iff] at hr
      subst hr
      have hlast := ht.2 c (by rw [← List.append_assoc, List.getLast?_concat]; rfl)
      rw [hc] at hlast
      cases hlast
    | some e =>
      refine ht.2 d ?_
      simp only [List.getLast?_append, List.getLast?_cons, hr, Option.getD_some, Option.some_or,
        Option.mem_some] at hd ⊢
      exact hd

/-- A label that a line is read with is there, without white space at its ends, exactly if the
directive is read the same with one character of the white space behind its keyword; where it is
not, it is one of two or more such characters, and the line with one of them is read without a label
or not at all. Only a marking can state an empty label. -/
theorem parseLine_label {l : Line} {s : Step} {label : String} (h : parseLine l = .ok s)
    (hl : s.action.label? = some label) :
    (label = "" → s.action.kind = "annotate") ∧
    (label ≠ "" → ∃ k w c r rest, TakesLabel k ∧ IsGap (w ++ [c]) ∧ Unblank r ∧
      clauses l.text.toList = (k ++ (w ++ c :: r)) :: rest ∧
      let tight : Line := { l with text := str (k ++ c :: r) }
      (label.trimBlank = label ↔ parseLine tight = .ok ⟨s.action, {}⟩) ∧
      (label.trimBlank ≠ label → w ≠ [] ∧ (∃ b ∈ w ++ [c], label = str [b]) ∧
        ∀ s', parseLine tight = .ok s' → s'.action.label? = none)) := by
  obtain ⟨base, rest, d, hclauses, hd, ha, -⟩ := parseLine_ok h
  rcases Directive.label_of_action ha hl with ⟨lb, hlb, rfl⟩ | ⟨rfl, hkind⟩
  case inr => exact ⟨fun _ => hkind, fun hn => absurd rfl hn⟩
  obtain ⟨k, t, hk, rfl⟩ := Directive.exists_takesLabel hd hlb
  obtain ⟨w, c, r, hgap, hr, rfl, hcases⟩ := Directive.tight_of_takesLabel hk hd hlb
  obtain ⟨hb, ht⟩ := no_divider_of_directive hclauses hd
  obtain ⟨hb', ht'⟩ := tight_line hk.ne_nil hgap hb ht
  have htrim : (str lb).trimBlank = str lb ↔ Text.trim lb = lb := by
    rw [String.trimBlank, str, String.toList_ofList, String.ofList_inj]
  have hn : lb ≠ [] := by
    rcases hcases with ⟨hn, -⟩ | ⟨-, ⟨b, -, rfl⟩, -⟩
    · exact hn
    · simp
  refine ⟨fun he => absurd he (str_ne_empty hn), fun _ =>
    ⟨k, w, c, r, rest, hk, hgap, hr, hclauses, ?_⟩⟩
  intro tight
  simp only [ne_eq, htrim]
  rcases hcases with ⟨-, hlabel, htight⟩ | ⟨hw, ⟨b, hb₁, rfl⟩, hnone⟩
  · have hparse : parseLine tight = .ok ⟨s.action, {}⟩ :=
      parseLine_of_ofText? (l := tight) rfl hb' ht' htight ha
    exact ⟨iff_of_true hlabel hparse, fun hne => absurd hlabel hne⟩
  · have hblank : Text.trim [b] ≠ [b] := by
      intro he
      have hhead := (Text.trim_eq_self_iff.mp he).1 b rfl
      rw [hgap.2 b hb₁] at hhead
      cases hhead
    have hunlabelled : ∀ s', parseLine tight = .ok s' → s'.action.label? = none := by
      intro s' h'
      obtain ⟨d', hd', ha', -⟩ := parseLine_plain (by rwa [String.toList_ofList]) h'
      rw [String.toList_ofList, ht'] at hd'
      obtain ⟨n, f, rfl⟩ := hnone d' hd'
      have he : s'.action = .screenshot (str n) none f := (Except.ok.inj ha').symm
      rw [he]
      rfl
    refine ⟨iff_of_false hblank fun h' => ?_, fun _ => ⟨hw, ⟨b, hb₁, rfl⟩, hunlabelled⟩⟩
    rw [hunlabelled _ h'] at hl
    cases hl

/-- A click without a label that is accepted with two blanks behind its keyword. -/
theorem parseLine_label_blank :
    let l : Line := ⟨"guide.md", 1, "Click  (tour.home.btn.go)"⟩
    parseLine l = .ok ⟨.click " " "tour.home.btn.go" none, {}⟩ ∧
      ∃ k w c r, TakesLabel k ∧ w ≠ [] ∧ IsGap (w ++ [c]) ∧ l.text = str (k ++ (w ++ c :: r)) ∧
        ∀ s, parseLine { l with text := str (k ++ c :: r) } = .ok s → s.action.label? = none := by
  intro l
  have h : parseLine l = .ok ⟨.click " " "tour.home.btn.go" none, {}⟩ :=
    ok_of_toOption (by decide +kernel)
  obtain ⟨-, hlabel⟩ := parseLine_label h rfl
  obtain ⟨k, w, c, r, rest, hk, hgap, -, hclauses, -, hblank⟩ := hlabel (by decide)
  obtain ⟨hw, -, hnone⟩ := hblank (by decide +kernel)
  have hone : clauses l.text.toList = [l.text.toList] := by decide +kernel
  have htext : l.text.toList = k ++ (w ++ c :: r) :=
    (List.cons.inj (hone.symm.trans hclauses)).1
  exact ⟨h, k, w, c, r, hk, hw, hgap, by rw [str, ← htext, String.ofList_toList], hnone⟩

end Walkthrough.Guide
