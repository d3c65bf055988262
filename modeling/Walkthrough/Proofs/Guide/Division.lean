import Walkthrough.Proofs.Guide.Clause
import Walkthrough.Proofs.Text.Strip
/-!
Lines divided into clauses. Nothing of a line is lost, and a divider stays in a clause only within
the quotes that the word of a modifier opens; without quotes a line is divided wherever it can be.
-/

namespace Walkthrough

/-- The parts of a text between the places where a separator stands, looked for from the left on. -/
def Text.division (sep : List Char) : List Char → List (List Char)
  | [] => [[]]
  | c :: r =>
    if sep.isPrefixOf (c :: r) then [] :: division sep (r.drop (sep.length - 1))
    else consFirst c (division sep r)
termination_by s => s.length

theorem Text.division_ne_nil (sep s : List Char) : division sep s ≠ [] := by
  fun_cases division sep s with
  | case1 => simp
  | case2 c r hd => simp
  | case3 c r hd => cases division sep r <;> simp [consFirst]

namespace Guide

/-- The pieces with dividers between them are the text. -/
theorem intercalate_piecesFrom (before : List Char) (q : Bool) (s : List Char) :
    divider.intercalate (piecesFrom before q s) = before.reverse ++ s := by
  fun_induction piecesFrom before q s with
  | case1 before q => simp
  | case2 before q r ih =>
    rw [ih]
    simp
  | case3 before r ih =>
    rw [ih]
    simp
  | case4 before q r hq ih =>
    obtain ⟨p, ps, hp⟩ := List.exists_cons_of_ne_nil (piecesFrom_ne_nil [] false r)
    rw [hp] at ih ⊢
    rw [List.intercalate_cons_cons, ih]
    simp [divider]
  | case5 before q c r _ _ ih =>
    rw [ih]
    simp

/-- A text ends within the quotes that the word of a modifier opens. -/
def WithinQuotes (x : List Char) : Prop :=
  ∃ lead z, x = lead ++ '"' :: z ∧ '"' ∉ lead ∧ '"' ∉ z ∧
    (Text.trim lead = "narration:".toList ∨ Text.trim lead = "annotate:".toList)

theorem withinQuotes_of_opensQuote {lead : List Char} (h : opensQuote lead = true) :
    WithinQuotes (lead ++ ['"']) := by
  simp only [opensQuote, Bool.or_eq_true, beq_iff_eq] at h
  refine ⟨lead, [], rfl, fun hq => ?_, List.not_mem_nil, h⟩
  have hmem : '"' ∈ Text.trim lead := Text.mem_strip hq rfl
  obtain h | h := h
  · rw [h] at hmem
    revert hmem
    decide
  · rw [h] at hmem
    revert hmem
    decide

namespace WithinQuotes

theorem concat {x : List Char} {c : Char} (h : WithinQuotes x) (hc : c ≠ '"') :
    WithinQuotes (x ++ [c]) := by
  obtain ⟨lead, z, rfl, hlead, hz, hword⟩ := h
  refine ⟨lead, z ++ [c], by simp, hlead, ?_, hword⟩
  simp [hz, Ne.symm hc]

theorem of_concat {x : List Char} {c : Char} (h : WithinQuotes (x ++ [c])) (hc : c ≠ '"') :
    WithinQuotes x := by
  obtain ⟨lead, z, he, hlead, hz, hword⟩ := h
  obtain rfl | ⟨z, d, rfl⟩ := List.eq_nil_or_concat' z
  · exact absurd (List.append_inj' he rfl).2 (by simpa using hc)
  · rw [← List.cons_append, ← List.append_assoc] at he
    have hz' : '"' ∉ z := fun hq => hz (List.mem_append_left [d] hq)
    exact ⟨lead, z, (List.append_inj' he rfl).1, hlead, hz', hword⟩

end WithinQuotes

/-- Every divider that is left in a piece stands within quotes. -/
def QuotesDividers (p : List Char) : Prop := ∀ x y, p = x ++ divider ++ y → WithinQuotes x

theorem QuotesDividers.concat {b : List Char} {c : Char} (h : QuotesDividers b)
    (hc : c = '|' → ∀ x, b = x ++ [' '] → WithinQuotes x) : QuotesDividers (b ++ [c]) := by
  intro x y he
  obtain rfl | ⟨y, d, rfl⟩ := List.eq_nil_or_concat' y
  · -- the divider ends with the character
    have hshape : b ++ [c] = x ++ [' '] ++ ['|'] := by simpa [divider] using he
    obtain ⟨rfl, hbar⟩ := List.append_inj' hshape rfl
    exact hc (by simpa using hbar) x rfl
  · rw [← List.append_assoc] at he
    exact h x y (List.append_inj' he rfl).1

/-- What holds of a piece so far: its dividers stand within quotes, a quote that is open is one, and
no divider can come of its last character and of what follows. -/
structure Divides (q : Bool) (b r : List Char) : Prop where
  dividers : QuotesDividers b
  quoted : q = true → WithinQuotes b
  apart : q = false → b.getLast? = some ' ' → r.head? ≠ some '|'

namespace Divides

theorem start (r : List Char) : Divides false [] r where
  dividers := by
    intro x y h
    simp [divider] at h
  quoted := by
    intro h
    cases h
  apart := by
    intro _ h
    cases h

theorem quote {q : Bool} {b r : List Char} (h : Divides q b ('"' :: r)) :
    Divides (if q then false else opensQuote b) (b ++ ['"']) r where
  dividers := h.dividers.concat fun hbar => absurd hbar (by decide)
  quoted := by
    intro hq
    cases q with
    | true => cases hq
    | false => exact withinQuotes_of_opensQuote hq
  apart := by
    intro _ hlast
    simp at hlast

theorem cons {q : Bool} {b r : List Char} {c : Char} (h : Divides q b (c :: r)) (hc : c ≠ '"')
    (hd : q = false → c = ' ' → r.head? ≠ some '|') : Divides q (b ++ [c]) r where
  dividers := by
    refine h.dividers.concat fun hbar x hx => ?_
    cases q with
    | true => exact WithinQuotes.of_concat (hx ▸ h.quoted rfl) (by decide)
    | false => exact absurd (hbar ▸ rfl) (h.apart rfl (by rw [hx, List.getLast?_concat]))
  quoted := fun hq => (h.quoted hq).concat hc
  apart := by
    intro hq hlast
    rw [List.getLast?_concat, Option.some.injEq] at hlast
    exact hd hq hlast

end Divides

/-- What holds of the piece so far goes over to all the pieces. -/
theorem quotesDividers_of_mem_piecesFrom {before s p : List Char} {q : Bool}
    (hp : p ∈ piecesFrom before q s) (h : Divides q before.reverse s) : QuotesDividers p := by
  fun_induction piecesFrom before q s with
  | case1 before q =>
    rw [List.mem_singleton.mp hp]
    exact h.dividers
  | case2 before q r ih =>
    apply ih hp
    rw [List.reverse_cons]
    exact h.quote
  | case3 before r ih =>
    apply ih hp
    rw [List.reverse_cons]
    exact h.cons (by decide) fun hq => absurd hq (by decide)
  | case4 before q r hq ih =>
    obtain rfl | hp := List.mem_cons.mp hp
    · exact h.dividers
    · exact ih hp (.start r)
  | case5 before q c r hc hd ih =>
    apply ih hp
    rw [List.reverse_cons]
    refine h.cons (fun h => hc h) fun _ hblank hbar => ?_
    obtain ⟨t, rfl⟩ := List.head?_eq_some_iff.mp hbar
    exact hd t hblank rfl

/-- Without quotes the pieces are the parts between the dividers. -/
theorem piecesFrom_of_no_quote {s : List Char} (hs : '"' ∉ s) (before : List Char) :
    piecesFrom before false s = (Text.division divider s).modifyHead (before.reverse ++ ·) := by
  fun_induction Text.division divider s generalizing before with
  | case1 => simp [piecesFrom]
  | case2 c r hd ih =>
    obtain ⟨t, ht⟩ := List.isPrefixOf_iff_prefix.mp hd
    obtain ⟨rfl, rfl⟩ := List.cons.inj ht
    have ht : '"' ∉ t := fun hq => hs (by simp [hq])
    have hrest : piecesFrom [] false t = (Text.division divider t).modifyHead ([] ++ ·) :=
      ih ht []
    change piecesFrom before false (divider ++ t) =
      (before.reverse ++ []) :: Text.division divider t
    rw [piecesFrom_divider, hrest, List.append_nil]
    cases Text.division divider t <;> rfl
  | case3 c r hd ih =>
    rw [List.mem_cons, not_or] at hs
    have hbar : c = ' ' → r.head? ≠ some '|' := by
      rintro rfl hr
      obtain ⟨t, rfl⟩ := List.head?_eq_some_iff.mp hr
      exact hd rfl
    rw [piecesFrom_cons (Ne.symm hs.1) hbar, ih hs.2]
    obtain ⟨p, ps, hp⟩ := List.exists_cons_of_ne_nil (Text.division_ne_nil divider r)
    simp [hp, Text.consFirst]

/-- A line is divided into pieces that put together are the line, and its clauses are the pieces
without the white space at their ends. A divider is left in a piece only behind its first quote,
which the word of a modifier opens, and before its second; in a line without quotes none is left. -/
theorem clauses_divide (s : List Char) :
    (∃ ps, ps ≠ [] ∧ divider.intercalate ps = s ∧ clauses s = ps.map Text.trim ∧
      ∀ p ∈ ps, ∀ x y, p = x ++ divider ++ y → WithinQuotes x) ∧
    ('"' ∉ s → clauses s = (Text.division divider s).map Text.trim) := by
  constructor
  · refine ⟨rawClauses s, piecesFrom_ne_nil [] false s, ?_, rfl, fun p hp => ?_⟩
    · exact intercalate_piecesFrom [] false s
    · exact quotesDividers_of_mem_piecesFrom hp (.start s)
  · intro hs
    rw [clauses, rawClauses, piecesFrom_of_no_quote hs]
    cases Text.division divider s <;> rfl

/-- A divider within quotes stays, and the one behind them does not. -/
theorem clauses_divide_quoted :
    let s := "Say: Hi | narration:\"a | b\" | predelay:5".toList
    let t := "Say: Hi | predelay:5".toList
    clauses s = ["Say: Hi".toList, "narration:\"a | b\"".toList, "predelay:5".toList] ∧
      (∃ ps, ps ≠ [] ∧ divider.intercalate ps = s ∧ clauses s = ps.map Text.trim ∧
        ∀ p ∈ ps, ∀ x y, p = x ++ divider ++ y → WithinQuotes x) ∧
      '"' ∉ t ∧ clauses t = (Text.division divider t).map Text.trim := by
  intro s t
  have ht : '"' ∉ t := by decide
  exact ⟨by decide +kernel, (clauses_divide s).1, ht, (clauses_divide t).2 ht⟩

end Guide

end Walkthrough
