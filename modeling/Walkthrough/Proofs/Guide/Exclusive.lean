import Mathlib.Data.List.Perm.Basic
import Walkthrough.Proofs.Guide.Keyword
import Walkthrough.Proofs.Tour.Acceptance
/-!
Forms of directives exclude one another: what a text begins with tells which form can read it, so
that it does not matter in which order the forms are tried.
-/

namespace Walkthrough

/-- Where at most one item is of use, the first one that is does not hang on their order. -/
theorem findSome?_eq_of_perm {α β : Type} {xs ys : List α} {f : α → Option β} (h : xs.Perm ys)
    (hone : xs.countP (fun x => (f x).isSome) ≤ 1) : xs.findSome? f = ys.findSome? f := by
  have hperm : (xs.filterMap f).Perm (ys.filterMap f) := h.filterMap f
  rw [← List.length_filterMap_eq_countP] at hone
  rw [← List.head?_filterMap, ← List.head?_filterMap]
  match hx : xs.filterMap f with
  | [] =>
    rw [hx] at hperm
    rw [hperm.nil_eq]
  | [b] =>
    rw [hx] at hperm
    rw [List.singleton_perm.mp hperm]
  | b :: c :: rest =>
    rw [hx] at hone
    simp at hone

namespace Guide

namespace Directive

/-- Which of the forms can read a text, by what the text begins with. Two begin with the same word
and are told by what comes behind it; one begins with a letter of any case. -/
def formAt (s : List Char) : Nat :=
  match s with
  | 'N' :: _ | 'S' :: 'a' :: _ => 0
  | 'G' :: _ => 1
  | 'C' :: _ => 2
  | 'F' :: _ => 3
  | 'W' :: _ =>
    match (after? "Wait" s).bind afterBlanks? with
    | some ('f' :: _) => 4
    | _ => 6
  | 'S' :: _ => 7
  | 'A' :: _ => 8
  | 'I' :: _ => 9
  | _ => 5

/-- A text that begins with a word is at the place of the word's form. -/
theorem formAt_of_after? {word : String} {s r : List Char} {n : Nat} (h : after? word s = some r)
    (hw : formAt (word.toList ++ r) = n) : formAt s = n := by
  rw [after?_eq_some_iff.mp h]
  exact hw

variable {s : List Char} {d : Directive}

theorem formAt_of_narration? (h : narration? s = some d) : formAt s = 0 := by
  obtain ⟨m, hm, -⟩ := Option.map_eq_some_iff.mp h
  obtain hm | ⟨-, hm⟩ := Option.or_eq_some_iff.mp hm
  · obtain ⟨r, hr, -⟩ := Option.bind_eq_some_iff.mp hm
    exact formAt_of_after? hr rfl
  · obtain ⟨r, hr, -⟩ := Option.bind_eq_some_iff.mp hm
    exact formAt_of_after? hr rfl

theorem formAt_of_waitForEvent? (h : waitForEvent? s = some d) : formAt s = 4 := by
  simp only [waitForEvent?, Option.bind_eq_bind, Option.bind_eq_some_iff] at h
  obtain ⟨r, hr, b, hb, t, ht, -⟩ := h
  obtain rfl := after?_eq_some_iff.mp hr
  obtain rfl := after?_eq_some_iff.mp ht
  have hread : (after? "Wait" ("Wait".toList ++ r)).bind afterBlanks? =
      some ("for".toList ++ t) := by
    rw [hr]
    exact hb
  change (match (after? "Wait" ("Wait".toList ++ r)).bind afterBlanks? with
    | some ('f' :: _) => 4
    | _ => 6) = 4
  rw [hread]
  rfl

theorem formAt_of_waitMs? (h : waitMs? s = some d) : formAt s = 6 := by
  simp only [waitMs?, Option.bind_eq_bind, Option.bind_eq_some_iff] at h
  obtain ⟨r, hr, b, hb, ⟨ds, rest⟩, hrun, -⟩ := h
  obtain rfl := after?_eq_some_iff.mp hr
  change (match (after? "Wait" ("Wait".toList ++ r)).bind afterBlanks? with
    | some ('f' :: _) => 4
    | _ => 6) = 6
  rw [hr, Option.bind_some, hb]
  -- the first character behind the white space is a digit
  split
  · next t he =>
    cases he
    cases hrun
  · rfl

theorem formAt_of_expectVisible? (h : expectVisible? s = some d) : formAt s = 5 := by
  obtain ⟨r, hr, -⟩ := Option.bind_eq_some_iff.mp h
  obtain ⟨e, rfl, he⟩ := exists_of_afterAnyCase? hr
  cases e with
  | nil => cases he
  | cons c e =>
    have hc : sameLetter 'e' c = true := by
      by_contra hc
      simp [afterAnyCase?, hc] at he
    have hother {x : Char} (hx : sameLetter 'e' x = false) (t : List Char) :
        c :: (e ++ r) ≠ x :: t := by
      rintro ⟨⟩
      rw [hc] at hx
      cases hx
    rw [List.cons_append, formAt]
    all_goals exact fun t => hother rfl _

theorem formAt_of_screenshot? (h : screenshot? s = some d) : formAt s = 7 := by
  obtain ⟨r, hr, -⟩ := Option.bind_eq_some_iff.mp h
  obtain hr | ⟨-, hr⟩ := Option.or_eq_some_iff.mp hr
  · exact formAt_of_after? hr rfl
  · exact formAt_of_after? hr rfl

/-- The place of a text is that of the form that reads it. -/
theorem forms_formAt (s : List Char) : List.Forall₂
    (fun (form : List Char → Option Directive) n => (form s).isSome = true → formAt s = n)
    forms (List.range 10) := by
  have hread {form : List Char → Option Directive} {n : Nat}
      (h : ∀ d, form s = some d → formAt s = n) (hs : (form s).isSome = true) : formAt s = n := by
    obtain ⟨d, hd⟩ := Option.isSome_iff_exists.mp hs
    exact h d hd
  have hword (word : String) {rest : List Char → Option Directive} {n : Nat}
      (hw : ∀ r, formAt (word.toList ++ r) = n) (d : Directive)
      (h : (after? word s).bind rest = some d) : formAt s = n := by
    obtain ⟨r, hr, -⟩ := Option.bind_eq_some_iff.mp h
    exact formAt_of_after? hr (hw r)
  refine .cons (hread fun d => formAt_of_narration?) <|
    .cons (hread (hword "Goto" fun r => rfl)) <| .cons (hread (hword "Click" fun r => rfl)) <|
    .cons (hread (hword "Fill" fun r => rfl)) <| .cons (hread fun d => formAt_of_waitForEvent?) <|
    .cons (hread fun d => formAt_of_expectVisible?) <|
    .cons (hread fun d => formAt_of_waitMs?) <| .cons (hread fun d => formAt_of_screenshot?) <|
    .cons (hread (hword "Annotate" fun r => rfl)) <|
    .cons (hread (hword "Include" fun r => rfl)) .nil

/-- No text has two forms. -/
theorem countP_forms_le_one (s : List Char) :
    forms.countP (fun form => (form s).isSome) ≤ 1 := by
  have hd : (List.range 10).Pairwise fun m n => formAt s = m → ¬formAt s = n := by
    refine List.nodup_range.imp ?_
    rintro m n hmn rfl h
    exact hmn h
  exact Tour.countP_le_one (forms_formAt s) hd

end Directive

/-- What a line is read as when the forms of a directive are tried in some order. -/
def parseLineBy (table : List (List Char → Option Directive)) (l : Line) : Except Fault Step := do
  match clauses l.text.toList with
  | [] => .error (.refusal (l.refuse .unsupported))
  | base :: rest => do
    let extras ← modifiers l [] {} rest
    match table.findSome? (· base) with
    | some d => return ⟨← d.action l, extras⟩
    | none => .error (.refusal (l.refuse (refusalReason base)))

theorem parseLineBy_forms (l : Line) : parseLineBy Directive.forms l = parseLine l := rfl

/-- No two forms of a table that has the forms of a directive in some order read the same text, so
that a line is the same step, or is refused for the same reason, by every such table. -/
theorem parseLine_orderless {table : List (List Char → Option Directive)}
    (ht : table.Perm Directive.forms) :
    (∀ s, table.countP (fun form => (form s).isSome) ≤ 1) ∧
      ∀ l, parseLineBy table l = parseLine l := by
  have hone (s : List Char) : table.countP (fun form => (form s).isSome) ≤ 1 := by
    rw [ht.countP_eq]
    exact Directive.countP_forms_le_one s
  refine ⟨hone, fun l => ?_⟩
  have hsome (s : List Char) :
      table.findSome? (· s) = Directive.forms.findSome? (· s) := findSome?_eq_of_perm ht (hone s)
  rw [← parseLineBy_forms]
  unfold parseLineBy
  simp only [hsome]

/-- A wait for an event is the same step where the form of a pause is tried before that of
events. -/
theorem parseLine_orderless_reversed :
    let table := Directive.forms.reverse
    let l : Line := ⟨"guide.md", 1, "Wait for the save (tour.event.saved)"⟩
    table.Perm Directive.forms ∧
      parseLineBy table l = .ok ⟨.waitForEvent "the save" "tour.event.saved" 10000, {}⟩ ∧
      parseLineBy table l = parseLine l := by
  intro table l
  have ht : table.Perm Directive.forms := List.reverse_perm _
  have hl := (parseLine_orderless ht).2 l
  refine ⟨ht, ?_, hl⟩
  rw [hl]
  exact ok_of_toOption (by decide +kernel)

end Guide

end Walkthrough
