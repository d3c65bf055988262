import Mathlib.Data.List.Infix
import Walkthrough.Guide.Clause
/-!
Clauses put together: texts that are pieces by themselves, with dividers between them, are the
pieces that are found. A text is one if it has no divider and opens no quote, or if it is a quoted
text behind the word of a modifier that takes one.
-/

namespace Walkthrough.Guide

/-- What divides the clauses of a line. -/
def divider : List Char := [' ', '|']

theorem piecesFrom_quote (before : List Char) (q : Bool) (r : List Char) :
    piecesFrom before q ('"' :: r) =
      piecesFrom ('"' :: before) (if q then false else opensQuote before.reverse) r := by
  rw [piecesFrom]

theorem piecesFrom_divider (before r : List Char) :
    piecesFrom before false (divider ++ r) = before.reverse :: piecesFrom [] false r := by
  rw [divider, List.cons_append, List.singleton_append, piecesFrom]
  rfl

/-- A character that neither is a quote nor begins a divider belongs to the piece. -/
theorem piecesFrom_cons {c : Char} {r : List Char} (hc : c ≠ '"')
    (hd : c = ' ' → r.head? ≠ some '|') (before : List Char) (q : Bool) :
    piecesFrom before q (c :: r) = piecesFrom (c :: before) q r := by
  rw [piecesFrom.eq_def]
  split
  · contradiction
  · next he => exact absurd (List.cons.inj he).1 hc
  · next he =>
    obtain ⟨rfl, rfl⟩ := List.cons.inj he
    exact absurd rfl (hd rfl)
  · next he =>
    obtain ⟨rfl, rfl⟩ := List.cons.inj he
    rfl

/-- In quotes every character but a quote belongs to the piece. -/
theorem piecesFrom_quoted_cons {c : Char} (hc : c ≠ '"') (before r : List Char) :
    piecesFrom before true (c :: r) = piecesFrom (c :: before) true r := by
  by_cases hd : c = ' ' ∧ r.head? = some '|'
  · obtain ⟨rfl, hr⟩ := hd
    obtain ⟨r, rfl⟩ := List.head?_eq_some_iff.mp hr
    rw [piecesFrom, if_pos rfl]
  · exact piecesFrom_cons hc (fun h hr => hd ⟨h, hr⟩) before true

theorem piecesFrom_quoted {t : List Char} (ht : '"' ∉ t) (before r : List Char) :
    piecesFrom before true (t ++ '"' :: r) = piecesFrom ('"' :: (t.reverse ++ before)) false r := by
  induction t generalizing before with
  | nil => rw [List.nil_append, piecesFrom_quote, if_pos rfl]; rfl
  | cons c t ih =>
    rw [List.mem_cons, not_or] at ht
    rw [List.cons_append, piecesFrom_quoted_cons (Ne.symm ht.1), ih ht.2, List.reverse_cons,
      List.append_assoc, List.singleton_append]

/-- No quote of a text opens, behind what stands before the text. -/
def Unquoted (before s : List Char) : Prop :=
  ∀ x y, s = x ++ '"' :: y → opensQuote (before ++ x) = false

theorem Unquoted.tail {before s : List Char} {c : Char} (h : Unquoted before (c :: s)) :
    Unquoted (before ++ [c]) s := by
  intro x y hs
  rw [List.append_assoc, List.singleton_append]
  exact h (c :: x) y (by rw [hs, List.cons_append])

theorem unquoted_of_not_mem {s : List Char} (h : '"' ∉ s) (before : List Char) :
    Unquoted before s := by
  rintro x y rfl
  exact absurd (List.mem_append_right x List.mem_cons_self) h

/-- A text without a divider in which no quote opens belongs to one piece. -/
theorem piecesFrom_append (before : List Char) {s r : List Char} (hd : ¬divider <:+: s)
    (hq : Unquoted before.reverse s) (hr : r.head? ≠ some '|') :
    piecesFrom before false (s ++ r) = piecesFrom (s.reverse ++ before) false r := by
  induction s generalizing before with
  | nil => rfl
  | cons c s ih =>
    have hd' : ¬divider <:+: s := fun h => hd (h.trans (List.suffix_cons c s).isInfix)
    have hq' : Unquoted (c :: before).reverse s := by
      rw [List.reverse_cons]
      exact hq.tail
    rw [List.reverse_cons, List.append_assoc, List.singleton_append, ← ih (c :: before) hd' hq']
    by_cases hc : c = '"'
    · subst hc
      have hopen := hq [] s rfl
      rw [List.append_nil] at hopen
      rw [List.cons_append, piecesFrom_quote, hopen]
      rfl
    · refine piecesFrom_cons hc (fun hblank hbar => ?_) before false
      -- a bar behind the blank would make a divider, or begin what follows
      cases s with
      | nil => exact hr hbar
      | cons d s =>
        obtain rfl : d = '|' := by simpa using hbar
        exact hd (hblank ▸ (List.prefix_append divider s).isInfix)

/-- A text without a divider is one piece, whatever quotes it has. -/
theorem piecesFrom_of_no_divider {s : List Char} (hd : ¬divider <:+: s) (before : List Char)
    (q : Bool) : piecesFrom before q s = [before.reverse ++ s] := by
  induction s generalizing before q with
  | nil => rw [piecesFrom, List.append_nil]
  | cons c s ih =>
    have hd' : ¬divider <:+: s := fun h => hd (h.trans (List.suffix_cons c s).isInfix)
    have hpiece (q : Bool) : piecesFrom (c :: before) q s = [before.reverse ++ c :: s] := by
      rw [ih hd', List.reverse_cons, List.append_assoc, List.singleton_append]
    by_cases hc : c = '"'
    · subst hc
      rw [piecesFrom_quote, hpiece]
    · rw [piecesFrom_cons hc, hpiece]
      intro hblank hbar
      obtain ⟨s, rfl⟩ := List.head?_eq_some_iff.mp hbar
      exact hd (hblank ▸ (List.prefix_append divider s).isInfix)

theorem clauses_of_no_divider {s : List Char} (hd : ¬divider <:+: s) :
    clauses s = [Text.trim s] := by
  rw [clauses, rawClauses, piecesFrom_of_no_divider hd]
  rfl

/-- The first piece goes on from what stands before it with the start of the text. -/
theorem exists_piecesFrom (before : List Char) (q : Bool) (s : List Char) :
    ∃ p ps, piecesFrom before q s = (before.reverse ++ p) :: ps ∧ p <+: s := by
  have hnext (b : List Char) {c : Char} {r : List Char} {pieces : List (List Char)}
      (h : ∃ p ps, pieces = ((c :: b).reverse ++ p) :: ps ∧ p <+: r) :
      ∃ p ps, pieces = (b.reverse ++ p) :: ps ∧ p <+: c :: r := by
    obtain ⟨p, ps, rfl, hp⟩ := h
    exact ⟨c :: p, ps, by simp, List.cons_prefix_cons.mpr ⟨rfl, hp⟩⟩
  fun_induction piecesFrom before q s with
  | case1 before q => exact ⟨[], [], by simp, List.nil_prefix⟩
  | case2 before q r ih => exact hnext before ih
  | case3 before r ih => exact hnext before ih
  | case4 before q r hq ih => exact ⟨[], _, by rw [List.append_nil], List.nil_prefix⟩
  | case5 before q c r _ _ ih => exact hnext before ih

/-- A piece in which no quote opens ends before the first divider. -/
theorem no_divider_of_piecesFrom {before s p : List Char} {ps : List (List Char)}
    (h : piecesFrom before false s = (before.reverse ++ p) :: ps) (hq : Unquoted before.reverse p) :
    ¬divider <:+: p := by
  induction s generalizing before p with
  | nil =>
    rw [piecesFrom] at h
    obtain rfl : p = [] := by simpa using (List.cons.inj h).1
    simp [divider]
  | cons c r ih =>
    by_cases hend : c = ' ' ∧ r.head? = some '|'
    · obtain ⟨rfl, hr⟩ := hend
      obtain ⟨r, rfl⟩ := List.head?_eq_some_iff.mp hr
      rw [piecesFrom, if_neg (by decide)] at h
      obtain rfl : p = [] := by simpa using (List.cons.inj h).1
      simp [divider]
    · -- the character is the next one of the piece
      have hnext (b : Bool) (h' : piecesFrom (c :: before) b r = (before.reverse ++ p) :: ps) :
          ∃ p', p = c :: p' ∧ p' <+: r := by
        obtain ⟨p', ps', he, hp⟩ := exists_piecesFrom (c :: before) b r
        rw [h', List.reverse_cons, List.append_assoc, List.singleton_append] at he
        exact ⟨p', List.append_cancel_left (List.cons.inj he).1, hp⟩
      have hrest (h' : piecesFrom (c :: before) false r = (before.reverse ++ p) :: ps) :
          ¬divider <:+: p := by
        obtain ⟨p', rfl, hp⟩ := hnext false h'
        have hpiece : piecesFrom (c :: before) false r = ((c :: before).reverse ++ p') :: ps := by
          rw [h', List.reverse_cons, List.append_assoc, List.singleton_append]
        have hunquoted : Unquoted (c :: before).reverse p' := by
          rw [List.reverse_cons]
          exact hq.tail
        have hn : ¬divider <:+: p' := ih hpiece hunquoted
        intro hi
        rcases List.infix_cons_iff.mp hi with hi | hi
        · obtain ⟨rfl, t, rfl⟩ := List.cons_prefix_cons.mp hi
          obtain ⟨u, rfl⟩ := hp
          exact hend ⟨rfl, rfl⟩
        · exact hn hi
      by_cases hc : c = '"'
      · subst hc
        rw [piecesFrom_quote] at h
        obtain ⟨p', rfl, -⟩ := hnext _ h
        have hopen := hq [] p' rfl
        rw [List.append_nil] at hopen
        rw [hopen] at h
        exact hrest h
      · rw [piecesFrom_cons hc fun hblank hbar => hend ⟨hblank, hbar⟩] at h
        exact hrest h

/-- A text is a piece by itself: whatever pieces follow, it is found as one. -/
def IsPiece (s : List Char) : Prop :=
  ∀ r, r.head? ≠ some '|' → piecesFrom [] false (s ++ r) = piecesFrom s.reverse false r

theorem isPiece_of_unquoted {s : List Char} (hd : ¬divider <:+: s) (hq : Unquoted [] s) :
    IsPiece s := by
  intro r hr
  rw [piecesFrom_append [] hd hq hr, List.append_nil]

/-- A quoted text may have dividers in it behind what opens a quote. -/
theorem isPiece_quoted {lead t : List Char} (hd : ¬divider <:+: lead) (hq : '"' ∉ lead)
    (ho : opensQuote lead = true) (ht : '"' ∉ t) : IsPiece (lead ++ '"' :: (t ++ ['"'])) := by
  intro r _
  have hshape : lead ++ '"' :: (t ++ ['"']) ++ r = lead ++ '"' :: (t ++ '"' :: r) := by simp
  rw [hshape, piecesFrom_append [] hd (unquoted_of_not_mem hq _) (by simp), piecesFrom_quote,
    List.append_nil, List.reverse_reverse, ho, if_neg (by decide), piecesFrom_quoted ht]
  simp

/-- Pieces with dividers between them are found again. -/
theorem rawClauses_intercalate {ps : List (List Char)} (hn : ps ≠ []) (h : ∀ p ∈ ps, IsPiece p) :
    rawClauses (divider.intercalate ps) = ps := by
  induction ps with
  | nil => exact absurd rfl hn
  | cons p ps ih =>
    have hp := h p List.mem_cons_self
    cases ps with
    | nil =>
      have hone := hp [] (by simp)
      rw [List.append_nil, piecesFrom, List.reverse_reverse] at hone
      rw [rawClauses, List.intercalate_singleton, hone]
    | cons q qs =>
      have hrest := ih (by simp) fun r hr => h r (List.mem_cons_of_mem p hr)
      unfold rawClauses at hrest ⊢
      rw [List.intercalate_cons_cons, List.append_assoc, hp _ (by simp [divider]),
        piecesFrom_divider, List.reverse_reverse, hrest]

end Walkthrough.Guide
