import Mathlib.Tactic.SplitIfs
import Walkthrough.Proofs.Identifier
import Walkthrough.Proofs.Text.Sorted
import Walkthrough.Proofs.Text.Strip
import Walkthrough.Scan
/-!
Scans of an app's source: which tokens of a search's output are kept as anchors, and that a quoted
text which the search looks for is an anchor of the guides between two quotes.
-/

namespace Walkthrough.Scan

section pattern

variable {ps : List (List Char)}

theorem length_le_flatMap (ps : List (List Char)) :
    ps.length ≤ (ps.flatMap ('.' :: ·)).length := by
  induction ps with
  | nil => exact Nat.zero_le _
  | cons p ps ih =>
    simp only [List.flatMap_cons, List.length_append, List.length_cons]
    omega

theorem count_flatMap (hp : ∀ p ∈ ps, allOf isPartChar p = true) :
    (ps.flatMap ('.' :: ·)).count '.' = ps.length := by
  induction ps with
  | nil => rfl
  | cons p ps ih =>
    rw [List.forall_mem_cons] at hp
    have hdot : p.count '.' = 0 := List.count_eq_zero.mpr (not_mem_of_allOf hp.1 rfl)
    rw [List.flatMap_cons, List.count_append, List.count_cons_self, hdot, ih hp.2, List.length_cons]
    omega

/-- A part is read up to what does not belong to it, and then the parts behind it. -/
theorem parts_dot {p r : List Char} (hp : allOf isPartChar p = true)
    (hr : ∀ c ∈ r.head?, isPartChar c = false) (fuel : Nat) :
    parts (fuel + 1) ('.' :: (p ++ r)) =
      some ((parts fuel r).elim ('.' :: p, r) fun x => ('.' :: p ++ x.1, x.2)) := by
  obtain ⟨hne, hpart⟩ := allOf_iff.mp hp
  have htake := Text.takeWhile_append_of_head? hpart hr
  have hdrop := Text.dropWhile_append_of_head? hpart hr
  obtain ⟨c, p, rfl⟩ := List.exists_cons_of_ne_nil hne
  conv_lhs => unfold parts
  simp only [htake, hdrop]
  cases parts fuel r <;> rfl

/-- What is read of a text is parts with dots in front. -/
theorem parts_eq_some {fuel : Nat} {s t rest : List Char} (h : parts fuel s = some (t, rest)) :
    ∃ ps : List (List Char), t = ps.flatMap ('.' :: ·) ∧ s = t ++ rest ∧
      ∀ p ∈ ps, allOf isPartChar p = true := by
  induction fuel generalizing s t rest with
  | zero => cases h
  | succ fuel ih =>
    obtain ⟨r, rfl⟩ : ∃ r, s = '.' :: r := by
      unfold parts at h
      split at h
      · cases h
      · exact ⟨_, rfl⟩
      · cases h
    obtain ⟨p, r, rfl, hpart, hr⟩ := Text.exists_run isPartChar r
    by_cases hp : allOf isPartChar p = true
    · rw [parts_dot hp hr, Option.some.injEq] at h
      cases hmore : parts fuel r with
      | none =>
        rw [hmore] at h
        cases h
        exact ⟨[p], by simp, rfl, by simpa using hp⟩
      | some x =>
        obtain ⟨more, rest'⟩ := x
        rw [hmore] at h
        cases h
        obtain ⟨ps, rfl, rfl, hps⟩ := ih hmore
        exact ⟨p :: ps, rfl, by simp, List.forall_mem_cons.mpr ⟨hp, hps⟩⟩
    · -- a dot without a part behind it is not read
      obtain rfl : p = [] := by
        by_contra hne
        exact hp (allOf_iff.mpr ⟨hne, hpart⟩)
      have htake := Text.takeWhile_append_of_head? hpart hr
      unfold parts at h
      simp only [htake] at h
      cases h

/-- Parts are read up to what neither belongs to a part nor begins one. -/
theorem parts_append {fuel : Nat} {rest : List Char} (hn : ps ≠ []) (hf : ps.length ≤ fuel)
    (hp : ∀ p ∈ ps, allOf isPartChar p = true)
    (hr : ∀ c ∈ rest.head?, isPartChar c = false ∧ c ≠ '.') :
    parts fuel (ps.flatMap ('.' :: ·) ++ rest) = some (ps.flatMap ('.' :: ·), rest) := by
  induction ps generalizing fuel with
  | nil => exact absurd rfl hn
  | cons p ps ih =>
    rw [List.forall_mem_cons] at hp
    obtain _ | fuel := fuel
    · cases hf
    have hstop : ∀ c ∈ (ps.flatMap ('.' :: ·) ++ rest).head?, isPartChar c = false := by
      cases ps with
      | nil => exact fun c hc => (hr c hc).1
      | cons q qs =>
        rintro _ ⟨⟩
        rfl
    have hread := parts_dot hp.1 hstop fuel
    rw [List.flatMap_cons, List.append_assoc, List.cons_append, hread]
    cases ps with
    | nil =>
      have hnone : parts fuel rest = none := by
        unfold parts
        split
        · rfl
        · exact absurd rfl (hr '.' rfl).2
        · rfl
      rw [List.flatMap_nil, List.nil_append, hnone]
      simp
    | cons q qs =>
      rw [ih (by simp) (Nat.le_of_succ_le_succ hf) hp.2]
      rfl

end pattern

theorem isQuote_iff {c : Char} :
    isQuote c = true ↔ c = '"' ∨ c = '\'' ∨ c = '\x60' := by
  simp only [isQuote, Bool.or_eq_true, beq_iff_eq, or_assoc]

theorem isPartChar_of_isQuote {c : Char} (h : isQuote c = true) :
    isPartChar c = false ∧ c ≠ '.' := by
  obtain rfl | rfl | rfl := isQuote_iff.mp h
  all_goals exact ⟨rfl, by decide⟩

theorem isBlank_of_isQuote {c : Char} (h : isQuote c = true) : Text.isBlank c = false := by
  obtain rfl | rfl | rfl := isQuote_iff.mp h
  all_goals rfl

/-- What is found at the start of a text is an anchor between two quotes. -/
theorem quotedAnchor?_eq_some_iff {s t rest : List Char} : quotedAnchor? s = some (t, rest) ↔
    s = t ++ rest ∧ ∃ q a q', t = q :: (a ++ [q']) ∧ isQuote q = true ∧ isQuote q' = true ∧
      isAnchor a = true := by
  constructor
  · intro h
    unfold quotedAnchor? at h
    split at h
    · next q r =>
      split_ifs at h with hq
      rw [Bool.and_eq_true, List.isPrefixOf_iff_prefix] at hq
      obtain ⟨hq, r, rfl⟩ := hq
      split at h
      · next p q' rest' hparts =>
        split_ifs at h with hq'
        rw [Bool.and_eq_true, decide_eq_true_eq] at hq'
        cases h
        obtain ⟨ps, rfl, hr, hps⟩ := parts_eq_some hparts
        rw [count_flatMap hps] at hq'
        refine ⟨?_, q, "tour".toList ++ ps.flatMap ('.' :: ·), q', by simp, hq, hq'.1,
          isAnchor_iff.mpr ⟨ps, rfl, hq'.2, hps⟩⟩
        have hr' : r = ps.flatMap ('.' :: ·) ++ q' :: rest := hr
        simp [hr']
      · cases h
    · cases h
  · rintro ⟨rfl, q, a, q', rfl, hq, hq', ha⟩
    obtain ⟨ps, rfl, hlen, hps⟩ := isAnchor_iff.mp ha
    have hn : ps ≠ [] := by
      rintro rfl
      cases hlen
    have hshape : q :: ("tour".toList ++ ps.flatMap ('.' :: ·) ++ [q']) ++ rest =
        q :: ("tour".toList ++ (ps.flatMap ('.' :: ·) ++ q' :: rest)) := by simp
    have hstop : ∀ c ∈ (q' :: rest).head?, isPartChar c = false ∧ c ≠ '.' := by
      rintro _ ⟨⟩
      exact isPartChar_of_isQuote hq'
    have hfuel : ps.length ≤
        ("tour".toList ++ (ps.flatMap ('.' :: ·) ++ q' :: rest)).length + 1 := by
      have hle := length_le_flatMap ps
      simp only [List.length_append]
      omega
    have hlead : "tour".toList.isPrefixOf
        ("tour".toList ++ (ps.flatMap ('.' :: ·) ++ q' :: rest)) = true :=
      List.isPrefixOf_iff_prefix.mpr (List.prefix_append _ _)
    have hdrop : ("tour".toList ++ (ps.flatMap ('.' :: ·) ++ q' :: rest)).drop 4 =
        ps.flatMap ('.' :: ·) ++ q' :: rest := rfl
    rw [hshape, quotedAnchor?, hq, hlead, hdrop, parts_append hn hfuel hps hstop]
    simp [hq', count_flatMap hps, hlen]

/-- Without the quotes it is the anchor. -/
theorem token?_of_quotedAnchor? {line : List Char} (h : quotedAnchor? line = some (line, [])) :
    ∃ a, token? line = some a ∧ isAnchor a = true := by
  obtain ⟨-, q, a, q', rfl, hq, hq', ha⟩ := quotedAnchor?_eq_some_iff.mp h
  have htrim : Text.trim (q :: (a ++ [q'])) = q :: (a ++ [q']) := by
    apply Text.trim_of_ends
    · rintro _ ⟨⟩
      exact isBlank_of_isQuote hq
    · rw [← List.cons_append, List.getLast?_concat]
      rintro _ ⟨⟩
      exact isBlank_of_isQuote hq'
  have hplain {c : Char} (hc : c ∈ a) : isQuote c = false := by
    by_contra hquote
    obtain ⟨hpart, hdot⟩ := isPartChar_of_isQuote (Bool.not_eq_false _ ▸ hquote)
    have hname := isNameChar_of_isAnchor ha hc
    simp [isNameChar, hpart, hdot] at hname
  have hstrip : Text.strip isQuote ([q] ++ (a ++ [q'])) = a :=
    Text.strip_append (by simpa using hq) (by simpa using hq')
      (fun c hc => hplain (List.mem_of_head? hc)) fun c hc => hplain (List.mem_of_getLast? hc)
  refine ⟨a, ?_, ha⟩
  rw [token?, htrim]
  exact congrArg some hstrip

theorem token?_eq_some_iff {line t : List Char} : token? line = some t ↔
    Text.trim line ≠ [] ∧ t = Text.strip isQuote (Text.trim line) := by
  by_cases hline : Text.trim line = []
  · have hnone : token? line = none := by rw [token?, hline]
    rw [hnone]
    constructor
    · intro h
      cases h
    · intro h
      exact absurd hline h.1
  · have hsome : token? line = some (Text.strip isQuote (Text.trim line)) := by
      unfold token?
      split
      · contradiction
      · rfl
    rw [hsome, Option.some.injEq, eq_comm]
    exact (and_iff_right hline).symm

/-- Whatever a token is made of, it has no line feed that a file's name could have at its end. -/
theorem isKept_iff {output t line : List Char} (hl : line ∈ Text.lines output)
    (ht : token? line = some t) : isKept t = true ↔
      ¬eventLead.toList <+: t ∧ ∀ x ∈ fileSuffixes, ¬x.toList <:+ t := by
  obtain ⟨-, rfl⟩ := token?_eq_some_iff.mp ht
  have hfeed : '\n' ∉ Text.strip isQuote (Text.trim line) := by
    intro hm
    have hbreak := Text.isBreak_of_mem_lines hl (Text.mem_of_mem_strip (Text.mem_of_mem_strip hm))
    exact absurd hbreak (by decide)
  rw [isKept, isFileName, upToLineFeed_of_not_mem hfeed]
  simp only [Bool.and_eq_true, Bool.not_eq_true', ← Bool.not_eq_true, List.isPrefixOf_iff_prefix,
    List.any_eq_true, List.isSuffixOf_iff_suffix, not_exists, not_and]

/-- The tokens that a search's output keeps. -/
def kept (output : String) : List String :=
  (((Text.lines output.toList).filterMap token?).filter isKept).map String.ofList

theorem mem_kept_iff {output t : String} : t ∈ kept output ↔
    ∃ line ∈ Text.lines output.toList, token? line = some t.toList ∧ isKept t.toList = true := by
  simp only [kept, List.mem_map, List.mem_filter, List.mem_filterMap]
  constructor
  · rintro ⟨t, ⟨⟨line, hl, ht⟩, hk⟩, rfl⟩
    rw [String.toList_ofList]
    exact ⟨line, hl, ht, hk⟩
  · rintro ⟨line, hl, ht, hk⟩
    exact ⟨t.toList, ⟨⟨line, hl, ht⟩, hk⟩, String.ofList_toList⟩

theorem mem_anchors_iff {output t : String} : t ∈ anchors output ↔
    ∃ line ∈ Text.lines output.toList, Text.trim line ≠ [] ∧
      t.toList = Text.strip isQuote (Text.trim line) ∧ ¬eventLead.toList <+: t.toList ∧
      ∀ x ∈ fileSuffixes, ¬x.toList <:+ t.toList := by
  have hanchors : t ∈ anchors output ↔ t ∈ kept output := Text.mem_sortedSet
  rw [hanchors, mem_kept_iff]
  constructor
  · rintro ⟨line, hl, ht, hk⟩
    obtain ⟨hline, hstrip⟩ := token?_eq_some_iff.mp ht
    exact ⟨line, hl, hline, hstrip, (isKept_iff hl ht).mp hk⟩
  · rintro ⟨line, hl, hline, hstrip, hk⟩
    have ht := token?_eq_some_iff.mpr ⟨hline, hstrip⟩
    exact ⟨line, hl, ht, (isKept_iff hl ht).mpr hk⟩

/-- Outputs that say the same lines keep the same anchors. -/
theorem anchors_congr {a b : String} (h : ∀ line, Text.trim line ≠ [] →
    (line ∈ Text.lines a.toList ↔ line ∈ Text.lines b.toList)) : anchors a = anchors b := by
  apply Text.sortedSet_congr
  intro t
  change t ∈ kept a ↔ t ∈ kept b
  rw [mem_kept_iff, mem_kept_iff]
  apply exists_congr
  intro line
  apply and_congr_left
  rintro ⟨ht, -⟩
  exact h line (token?_eq_some_iff.mp ht).1

/-- What is said by one output and then another is said by one of them. -/
theorem mem_lines_append {a b : String} {line : List Char} (hline : Text.trim line ≠ []) :
    line ∈ Text.lines (a ++ "\n" ++ b).toList ↔
      line ∈ Text.lines a.toList ∨ line ∈ Text.lines b.toList := by
  have hshape : (a ++ "\n" ++ b).toList = a.toList ++ '\n' :: b.toList := by simp
  have hempty : line ≠ [] := by
    rintro rfl
    exact hline rfl
  rw [hshape]
  obtain h | h := Text.lines_append_feed a.toList b.toList
  · rw [h, List.mem_append]
  · rw [h, List.mem_append, List.mem_cons]
    simp [hempty]

theorem anchors_append (a b : String) :
    anchors (a ++ "\n" ++ b) = Text.sortedSet (anchors a ++ anchors b) := by
  apply Text.sortedSet_congr
  intro t
  have hmem {o : String} : t ∈ anchors o ↔ t ∈ kept o := Text.mem_sortedSet
  rw [List.mem_append, hmem, hmem]
  change t ∈ kept (a ++ "\n" ++ b) ↔ t ∈ kept a ∨ t ∈ kept b
  rw [mem_kept_iff, mem_kept_iff, mem_kept_iff, ← exists_or]
  apply exists_congr
  intro line
  rw [← or_and_right]
  apply and_congr_left
  rintro ⟨ht, -⟩
  exact mem_lines_append (token?_eq_some_iff.mp ht).1

/-- The anchors of a search's output are its tokens that are neither events nor files, each once and
in order. Where every line is what the search looks for they are anchors of the guides. It does not
matter in which order lines stand, how often, and what is blank between them, and two outputs joined
have the anchors of both. -/
theorem anchors_exact (output : String) :
    (anchors output).Pairwise (· < ·) ∧
    (∀ t, t ∈ anchors output ↔ ∃ line ∈ Text.lines output.toList, Text.trim line ≠ [] ∧
      t.toList = Text.strip isQuote (Text.trim line) ∧ ¬eventLead.toList <+: t.toList ∧
      ∀ x ∈ fileSuffixes, ¬x.toList <:+ t.toList) ∧
    ((∀ line ∈ Text.lines output.toList, quotedAnchor? line = some (line, [])) →
      ∀ t ∈ anchors output, isAnchor t.toList = true) ∧
    (∀ other, (∀ line, Text.trim line ≠ [] →
      (line ∈ Text.lines output.toList ↔ line ∈ Text.lines other.toList)) →
      anchors output = anchors other) ∧
    ∀ other, anchors (output ++ "\n" ++ other) =
      Text.sortedSet (anchors output ++ anchors other) := by
  refine ⟨Text.pairwise_sortedSet _, fun t => mem_anchors_iff, fun h t ht => ?_,
    fun other => anchors_congr, anchors_append output⟩
  obtain ⟨line, hl, hline, hstrip, -⟩ := mem_anchors_iff.mp ht
  obtain ⟨a, hread, ha⟩ := token?_of_quotedAnchor? (h line hl)
  rw [hstrip, ← (token?_eq_some_iff.mp hread).2]
  exact ha

/-- A search that found an anchor twice and an event says one anchor, whatever the order. -/
theorem anchors_exact_repeated :
    let output := "'tour.home.go'\n\"tour.event.saved\"\n'tour.home.go'\n"
    let other := "\n\"tour.event.saved\"\n \n'tour.home.go'"
    (∀ line ∈ Text.lines output.toList, quotedAnchor? line = some (line, [])) ∧
      (∀ line, Text.trim line ≠ [] →
        (line ∈ Text.lines output.toList ↔ line ∈ Text.lines other.toList)) ∧
      anchors output = ["tour.home.go"] ∧ anchors other = anchors output ∧
      ∀ t ∈ anchors output, isAnchor t.toList = true := by
  intro output other
  have hlines : ∀ line ∈ Text.lines output.toList, quotedAnchor? line = some (line, []) := by
    decide +kernel
  have hsame : ∀ line, Text.trim line ≠ [] →
      (line ∈ Text.lines output.toList ↔ line ∈ Text.lines other.toList) := by
    intro line hline
    have houtput : Text.lines output.toList = ["'tour.home.go'".toList,
        "\"tour.event.saved\"".toList, "'tour.home.go'".toList] := by decide +kernel
    have hother : Text.lines other.toList = [[], "\"tour.event.saved\"".toList, [' '],
        "'tour.home.go'".toList] := by decide +kernel
    have hempty : line ≠ [] := fun h => hline (by rw [h]; rfl)
    have hblank : line ≠ [' '] := fun h => hline (by rw [h]; rfl)
    rw [houtput, hother]
    simp only [List.mem_cons, List.not_mem_nil, hempty, hblank, or_false, false_or]
    tauto
  obtain ⟨-, -, hform, hcongr, -⟩ := anchors_exact output
  exact ⟨hlines, hsame, by decide +kernel, (hcongr other hsame).symm, hform hlines⟩

end Walkthrough.Scan
