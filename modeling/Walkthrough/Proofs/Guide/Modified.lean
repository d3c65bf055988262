import Walkthrough.Proofs.Guide.Modifier
/-!
A directive with modifiers behind it. Whatever quotes the directive has and whatever dividers the
modifiers quote, the line is read as the directive alone with what the modifiers state, in any
order.
-/

namespace Walkthrough

/-- Extras that state what some modifiers state, and nothing else. -/
structure ExtrasOf.Stated (x : Extras) (ms : List Guide.Modifier) : Prop where
  preDelay : ∀ n, x.preDelay = some n ↔ ∃ ds, .preDelay ds ∈ ms ∧ n = .int (Text.digitsValue ds)
  narration : ∀ t, x.narration = some t ↔ ∃ s, .narration s ∈ ms ∧ t = Guide.str s
  capture : ∀ c, x.capture = some c ↔
    ∃ moment n flag, .capture moment n flag ∈ ms ∧ c = ⟨moment, Guide.str n, flag⟩
  markup : ∀ a, x.markup = some a ↔ ∃ i, .annotate i ∈ ms ∧ a = ⟨Guide.str i, none⟩

namespace ExtrasOf.Stated

open Guide

theorem nil : ({} : Extras).Stated [] := by
  constructor <;> simp

/-- The modifiers determine the extras, whatever their order. -/
theorem unique {x y : Extras} {ms ms' : List Modifier} (hx : x.Stated ms) (hy : y.Stated ms')
    (h : ∀ m, m ∈ ms ↔ m ∈ ms') : x = y := by
  have hp : x.preDelay = y.preDelay := Option.ext fun n => by
    simp only [hx.preDelay, hy.preDelay, h]
  have hn : x.narration = y.narration := Option.ext fun t => by
    simp only [hx.narration, hy.narration, h]
  have hc : x.capture = y.capture := Option.ext fun c => by
    simp only [hx.capture, hy.capture, h]
  have hm : x.markup = y.markup := Option.ext fun a => by
    simp only [hx.markup, hy.markup, h]
  obtain ⟨_, _, _, _⟩ := x
  obtain ⟨_, _, _, _⟩ := y
  obtain rfl := hp
  obtain rfl := hn
  obtain rfl := hc
  obtain rfl := hm
  rfl

/-- A modifier of a new kind adds what it states. -/
theorem apply {x : Extras} {ms : List Modifier} (hx : x.Stated ms) {m : Modifier}
    (hm : m.Writable) (hnew : m.word ∉ ms.map Modifier.word) :
    ∃ y, m.apply x = .ok y ∧ y.Stated (m :: ms) := by
  have hother {m' : Modifier} (hw : m'.word = m.word) : m' ∉ ms := fun hmem =>
    hnew (hw ▸ List.mem_map_of_mem hmem)
  cases m with
  | preDelay ds =>
    have hnumber : number ds = .ok (Text.digitsValue ds) := by
      rw [number, if_neg (Nat.not_lt.mpr hm.2.2)]
    refine ⟨{ x with preDelay := some (.int (Text.digitsValue ds)) }, ?_, ?_, ?_, ?_, ?_⟩
    · rw [Modifier.apply, hnumber]
      rfl
    · intro n
      have hnone (ds' : List Char) : Modifier.preDelay ds' ∉ ms := hother rfl
      simp [hnone, eq_comm]
    · simpa using hx.narration
    · simpa using hx.capture
    · simpa using hx.markup
  | narration t =>
    refine ⟨{ x with narration := some (str t) }, rfl, ?_, ?_, ?_, ?_⟩
    · simpa using hx.preDelay
    · intro u
      have hnone (s : List Char) : Modifier.narration s ∉ ms := hother rfl
      simp [hnone, eq_comm]
    · simpa using hx.capture
    · simpa using hx.markup
  | capture moment n flag =>
    refine ⟨{ x with capture := some ⟨moment, str n, flag⟩ }, rfl, ?_, ?_, ?_, ?_⟩
    · simpa using hx.preDelay
    · simpa using hx.narration
    · intro c
      have hnone (mo : Moment) (n' : List Char) (fl : Option Bool) :
          Modifier.capture mo n' fl ∉ ms := hother rfl
      simp [hnone, and_assoc, eq_comm]
    · simpa using hx.markup
  | annotate i =>
    refine ⟨{ x with markup := some ⟨str i, none⟩ }, rfl, ?_, ?_, ?_, ?_⟩
    · simpa using hx.preDelay
    · simpa using hx.narration
    · simpa using hx.capture
    · intro a
      have hnone (s : List Char) : Modifier.annotate s ∉ ms := hother rfl
      simp [hnone, eq_comm]

end ExtrasOf.Stated

namespace Guide

/-- A modifier in writing whose kind is not there yet is applied. -/
theorem modifiers_written (l : Line) {seen : List (List Char)} {m : Modifier} (hm : m.Writable)
    (hnew : m.word ∉ seen) (x : Extras) (cs : List (List Char)) :
    modifiers l seen x (m.written :: cs) =
      (m.apply x >>= fun y => modifiers l (m.word :: seen) y cs) := by
  rw [modifiers]
  simp only [Modifier.key_written, Modifier.ofText?_written hm, List.contains_eq_mem]
  rw [if_neg (by simpa using hnew)]

/-- A modifier whose kind was there before is refused. -/
theorem modifiers_repeated (l : Line) {seen : List (List Char)} {m : Modifier}
    (hold : m.word ∈ seen) (x : Extras) (cs : List (List Char)) :
    modifiers l seen x (m.written :: cs) =
      .error (.refusal (l.refuse (.repeatedModifier (str m.word)))) := by
  rw [modifiers]
  simp only [Modifier.key_written, List.contains_eq_mem]
  rw [if_pos (by simpa using hold)]

/-- Modifiers of different kinds add what they state to what stood there. -/
theorem modifiers_distinct (l : Line) {ms done : List Modifier} {x : Extras} (hx : x.Stated done)
    (hw : ∀ m ∈ ms, m.Writable) (hd : (done.map Modifier.word ++ ms.map Modifier.word).Nodup) :
    ∃ y : Extras, y.Stated (ms.reverse ++ done) ∧
      modifiers l (done.map Modifier.word) x (ms.map Modifier.written) = .ok y := by
  induction ms generalizing done x with
  | nil => exact ⟨x, hx, rfl⟩
  | cons m ms ih =>
    have hm := hw m List.mem_cons_self
    have hmiddle := List.perm_middle.nodup_iff.mp hd
    have hnew : m.word ∉ done.map Modifier.word := fun h =>
      (List.nodup_cons.mp hmiddle).1 (List.mem_append_left _ h)
    obtain ⟨y, hy, hsy⟩ := hx.apply hm hnew
    obtain ⟨z, hsz, hz⟩ := ih hsy (fun m' h => hw m' (List.mem_cons_of_mem m h)) hmiddle
    refine ⟨z, ?_, ?_⟩
    · rwa [List.reverse_cons, List.append_assoc]
    · rw [List.map_cons, modifiers_written l hm hnew, hy]
      exact hz

/-- Modifiers of which two are of one kind are refused, for a kind that is there twice. -/
theorem modifiers_duplicate (l : Line) {ms done : List Modifier} {x : Extras} (hx : x.Stated done)
    (hw : ∀ m ∈ ms, m.Writable) (hn : (done.map Modifier.word).Nodup)
    (hd : ¬(done.map Modifier.word ++ ms.map Modifier.word).Nodup) :
    ∃ w, 2 ≤ (done.map Modifier.word ++ ms.map Modifier.word).count w ∧
      modifiers l (done.map Modifier.word) x (ms.map Modifier.written) =
        .error (.refusal (l.refuse (.repeatedModifier (str w)))) := by
  induction ms generalizing done x with
  | nil => exact absurd (by simpa using hn) hd
  | cons m ms ih =>
    by_cases hold : m.word ∈ done.map Modifier.word
    · refine ⟨m.word, ?_, modifiers_repeated l hold x _⟩
      have hone := List.count_pos_iff.mpr hold
      rw [List.count_append, List.map_cons, List.count_cons_self]
      omega
    · have hm := hw m List.mem_cons_self
      obtain ⟨y, hy, hsy⟩ := hx.apply hm hold
      obtain ⟨w, hcount, hz⟩ := ih hsy (fun m' h => hw m' (List.mem_cons_of_mem m h))
        (List.nodup_cons.mpr ⟨hold, hn⟩) (fun h => hd (List.perm_middle.nodup_iff.mpr h))
      refine ⟨w, ?_, ?_⟩
      · rwa [List.map_cons, List.perm_middle.count_eq]
      · rw [List.map_cons, modifiers_written l hm hold, hy]
        exact hz

/-- What a directive does is the same on every line that admits it. -/
theorem Directive.action_congr {l : Line} {d : Directive} {a : Action} (h : d.action l = .ok a)
    (l' : Line) : d.action l' = .ok a := by
  cases d with
  | waitMs ds =>
    simp only [Directive.action] at h ⊢
    obtain ⟨n, hn, h⟩ := bind_eq_ok.mp h
    rw [hn, ok_bind]
    cases n with
    | zero => cases h
    | succ n => exact h
  | includeFragment name => cases h
  | fill lb a source => cases source <;> exact h
  | _ => exact h

/-- No directive begins with a letter that begins a modifier with a quoted text. -/
theorem Directive.ofText?_small {c : Char} (hc : c = 'n' ∨ c = 'a') (r : List Char) :
    ofText? (c :: r) = none := by
  have hafter {w : String} {d : Char} (hw : w.toList.head? = some d)
      (hd : d.isUpper = true) : after? w (c :: r) = none := by
    refine after?_of_head? hw rfl ?_
    rintro rfl
    rcases hc with rfl | rfl <;> cases hd
  have hexpect : afterAnyCase? ['e', 'x', 'p', 'e', 'c', 't'] (c :: r) = none := by
    rcases hc with rfl | rfl <;> rfl
  simp [ofText?, forms, narration?, messageAfter?, goto?, click?, fill?, waitForEvent?,
    expectVisible?, waitMs?, screenshot?, annotate?, includeFragment?, hexpect,
    hafter (w := "Narration:") (d := 'N') rfl rfl, hafter (w := "Say:") (d := 'S') rfl rfl,
    hafter (w := "Goto") (d := 'G') rfl rfl, hafter (w := "Click") (d := 'C') rfl rfl,
    hafter (w := "Fill") (d := 'F') rfl rfl, hafter (w := "Wait") (d := 'W') rfl rfl,
    hafter (w := "Screenshot") (d := 'S') rfl rfl,
    hafter (w := "Snapshot") (d := 'S') rfl rfl,
    hafter (w := "Annotate") (d := 'A') rfl rfl, hafter (w := "Include") (d := 'I') rfl rfl]

/-- No quote of a directive opens a quoted text. -/
theorem unquoted_of_directive {b : List Char} {d : Directive}
    (h : Directive.ofText? (Text.trim b) = some d) : Unquoted [] b := by
  rintro x y rfl
  have hfirst {c : Char} (hx : (Text.trim x).head? = some c) :
      (Text.trim (x ++ '"' :: y)).head? = some c := by
    rw [Text.head?_trim_eq] at hx ⊢
    rw [List.find?_append, hx]
    rfl
  have hnone {c : Char} (hc : c = 'n' ∨ c = 'a') : (Text.trim x).head? ≠ some c := by
    intro hx
    obtain ⟨r, hr⟩ := List.head?_eq_some_iff.mp (hfirst hx)
    rw [hr, Directive.ofText?_small hc] at h
    cases h
  rw [List.nil_append, opensQuote, Bool.or_eq_false_iff, beq_eq_false_iff_ne, beq_eq_false_iff_ne]
  refine ⟨fun he => hnone (.inl rfl) ?_, fun he => hnone (.inr rfl) ?_⟩
  · rw [he]
    rfl
  · rw [he]
    rfl

/-- A line with modifiers behind its text. -/
def Line.modified (l : Line) (ms : List Modifier) : Line :=
  { l with text := " | ".intercalate (l.text :: ms.map fun m => str m.written) }

theorem toList_modified (l : Line) (ms : List Modifier) :
    (l.modified ms).text.toList =
      divider.intercalate (l.text.toList :: ms.map fun m => ' ' :: m.written) := by
  have hfront (c : List Char) (cs : List (List Char)) :
      divider.intercalate ((' ' :: c) :: cs) = ' ' :: divider.intercalate (c :: cs) := by
    cases cs <;> rfl
  have hjoin (b : List Char) (cs : List (List Char)) :
      " | ".toList.intercalate (b :: cs) = divider.intercalate (b :: cs.map (' ' :: ·)) := by
    induction cs generalizing b with
    | nil => rfl
    | cons c cs ih =>
      rw [List.map_cons, List.intercalate_cons_cons, List.intercalate_cons_cons, ih, hfront,
        List.append_assoc, List.append_assoc]
      rfl
  rw [Line.modified, String.toList_intercalate, List.map_cons, hjoin, List.map_map, List.map_map]
  simp [Function.comp_def]

/-- The clauses of a modified line are the directive and the modifiers, whatever is quoted. -/
theorem clauses_modified {l : Line} {d : Directive} {ms : List Modifier}
    (hb : ¬divider <:+: l.text.toList) (hd : Directive.ofText? (Text.trim l.text.toList) = some d)
    (hw : ∀ m ∈ ms, m.Writable) :
    clauses (l.modified ms).text.toList =
      Text.trim l.text.toList :: ms.map Modifier.written := by
  have hpieces : ∀ p ∈ l.text.toList :: ms.map (fun m => ' ' :: m.written), IsPiece p := by
    intro p hp
    rw [List.mem_cons, List.mem_map] at hp
    obtain rfl | ⟨m, hm, rfl⟩ := hp
    · exact isPiece_of_unquoted hb (unquoted_of_directive hd)
    · exact Modifier.isPiece_written (hw m hm)
  rw [clauses, toList_modified, rawClauses_intercalate (List.cons_ne_nil _ _) hpieces,
    List.map_cons, List.map_map]
  congr 1
  exact List.map_congr_left fun m hm => Modifier.trim_written (hw m hm)

/-- A line without modifiers is what its directive does. -/
theorem parseLine_of_no_divider {l : Line} (hb : ¬divider <:+: l.text.toList) :
    parseLine l = match Directive.ofText? (Text.trim l.text.toList) with
      | some d => (d.action l).map fun a => ⟨a, {}⟩
      | none => .error (.refusal (l.refuse (refusalReason (Text.trim l.text.toList)))) := by
  simp only [parseLine, clauses_of_no_divider hb, modifiers, ok_bind]
  cases Directive.ofText? (Text.trim l.text.toList) with
  | none => rfl
  | some d => cases d.action l <;> rfl

/-- A text that is a directive alone makes a line that is read into its step. -/
theorem parseLine_of_ofText? {l l' : Line} {t : List Char} {d : Directive} {a : Action}
    (hl : l.text = str t) (hb : ¬divider <:+: t) (ht : Text.trim t = t)
    (hd : Directive.ofText? t = some d) (ha : d.action l' = .ok a) : parseLine l = .ok ⟨a, {}⟩ := by
  have htext : l.text.toList = t := by rw [hl, str, String.toList_ofList]
  rw [parseLine_of_no_divider (by rwa [htext]), htext, ht, hd]
  dsimp only
  rw [Directive.action_congr ha l]
  rfl

/-- A directive alone is read into a step without extras. -/
theorem parseLine_plain {l : Line} {s : Step} (hb : ¬divider <:+: l.text.toList)
    (h : parseLine l = .ok s) :
    ∃ d, Directive.ofText? (Text.trim l.text.toList) = some d ∧ d.action l = .ok s.action ∧
      s.extras = {} := by
  rw [parseLine_of_no_divider hb] at h
  split at h
  · next d hd =>
    cases ha : d.action l with
    | error e =>
      rw [ha] at h
      cases h
    | ok a =>
      rw [ha] at h
      cases h
      exact ⟨d, hd, ha, rfl⟩
  · cases h

/-- Modifiers in writing are independent of each other and of the directive they are behind. -/
theorem parseLine_modified {l : Line} {s : Step} {ms : List Modifier}
    (hb : ¬divider <:+: l.text.toList) (h : parseLine l = .ok s) (hw : ∀ m ∈ ms, m.Writable) :
    s.extras = {} ∧
      ((ms.map Modifier.word).Nodup → ∃ x : Extras, x.Stated ms ∧
        ∀ ms' : List Modifier, ms'.Perm ms → parseLine (l.modified ms') = .ok ⟨s.action, x⟩) ∧
      (¬(ms.map Modifier.word).Nodup → ∃ w, 2 ≤ (ms.map Modifier.word).count w ∧
        parseLine (l.modified ms) =
          .error (.refusal ((l.modified ms).refuse (.repeatedModifier (str w))))) := by
  obtain ⟨d, hd, ha, hplain⟩ := parseLine_plain hb h
  have hparse {ms' : List Modifier} (hw : ∀ m ∈ ms', m.Writable) :
      parseLine (l.modified ms') =
        (modifiers (l.modified ms') [] {} (ms'.map Modifier.written) >>=
          fun x => .ok ⟨s.action, x⟩) := by
    simp only [parseLine, clauses_modified hb hd hw, hd, Directive.action_congr ha, ok_bind]
    rfl
  refine ⟨hplain, fun hn => ?_, fun hn => ?_⟩
  · obtain ⟨x, hx, -⟩ := modifiers_distinct l .nil hw (by simpa using hn)
    have hx : x.Stated ms := ⟨by simpa using hx.preDelay, by simpa using hx.narration,
      by simpa using hx.capture, by simpa using hx.markup⟩
    refine ⟨x, hx, fun ms' hp => ?_⟩
    have hw' : ∀ m ∈ ms', m.Writable := fun m hm => hw m (hp.mem_iff.mp hm)
    have hn' : (ms'.map Modifier.word).Nodup := (hp.map Modifier.word).nodup_iff.mpr hn
    obtain ⟨y, hy, hread⟩ := modifiers_distinct (l.modified ms') .nil hw' (by simpa using hn')
    have hxy : x = y := hx.unique hy fun m => by simp [hp.mem_iff]
    rw [hparse hw', hxy]
    simp only [List.map_nil] at hread
    rw [hread]
    rfl
  · obtain ⟨w, hcount, hread⟩ := modifiers_duplicate (l.modified ms) .nil hw List.nodup_nil
      (by simpa using hn)
    refine ⟨w, by simpa using hcount, ?_⟩
    rw [hparse hw]
    simp only [List.map_nil] at hread
    rw [hread]
    rfl

/-- A quote behind a modifier's word in what is filled in, dividers in what is quoted, and a
modifier of each kind; and one kind twice. -/
theorem parseLine_modified_fill :
    (∃ x : Extras, x.Stated [.preDelay "250".toList, .narration "Now | then".toList,
        .capture .after "done".toList (some true), .annotate "Find \x7ba\x7d | b".toList] ∧
      parseLine ⟨"g", 1, "Fill q (tour.a.b.c) value:say \"narration:\"hi | " ++
        "annotate:\"Find \x7ba\x7d | b\" | capture:after:done:fullPage=true | " ++
        "narration:\"Now | then\" | predelay:250"⟩ =
          .ok ⟨.fill "q" "tour.a.b.c" (some "say \"narration:\"hi") none none, x⟩) ∧
      ∃ e, parseLine ⟨"g", 1, "Fill q (tour.a.b.c) value:say \"narration:\"hi | " ++
        "narration:\"a\" | predelay:250 | narration:\"b\""⟩ = .error (.refusal e) := by
  have hb : ¬divider <:+:
      (Line.mk "g" 1 "Fill q (tour.a.b.c) value:say \"narration:\"hi").text.toList := by decide
  have hl : parseLine ⟨"g", 1, "Fill q (tour.a.b.c) value:say \"narration:\"hi"⟩ =
      .ok ⟨.fill "q" "tour.a.b.c" (some "say \"narration:\"hi") none none, {}⟩ := by rfl
  constructor
  · have hw : ∀ m ∈ ([.preDelay "250".toList, .narration "Now | then".toList,
        .capture .after "done".toList (some true),
        .annotate "Find \x7ba\x7d | b".toList] : List Modifier), m.Writable := by
      simp only [List.forall_mem_cons]
      exact ⟨⟨by decide, List.all_eq_true.mp (by decide), by decide⟩,
        ⟨by decide, by decide, by decide⟩, ⟨by decide, List.all_eq_true.mp (by decide)⟩,
        ⟨by decide, by decide, by decide⟩, by simp⟩
    obtain ⟨-, hdistinct, -⟩ := parseLine_modified hb hl hw
    obtain ⟨x, hx, hread⟩ := hdistinct (by decide +kernel)
    refine ⟨x, hx, ?_⟩
    rw [← hread _ (List.reverse_perm _)]
    congr 1
  · have hw : ∀ m ∈ ([.narration "a".toList, .preDelay "250".toList,
        .narration "b".toList] : List Modifier), m.Writable := by
      simp only [List.forall_mem_cons]
      exact ⟨⟨by decide, by decide, by decide⟩,
        ⟨by decide, List.all_eq_true.mp (by decide), by decide⟩,
        ⟨by decide, by decide, by decide⟩, by simp⟩
    obtain ⟨-, -, htwice⟩ := parseLine_modified hb hl hw
    obtain ⟨w, -, hread⟩ := htwice (by decide +kernel)
    exact ⟨_, hread⟩

end Guide

end Walkthrough
