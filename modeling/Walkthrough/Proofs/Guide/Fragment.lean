import Mathlib.Data.List.TakeWhile
import Walkthrough.Guide
import Walkthrough.Proofs.Except
import Walkthrough.Proofs.Text.Encoding
import Walkthrough.Proofs.Text.Lines
/-!
Fragments: a guide that includes one reads as the guide that has its lines in place of the line that
includes it. A fragment that itself includes another is refused.
-/

namespace Walkthrough

/-- A refusal without the place it is about. -/
def Guide.Refusal.unplaced (r : Guide.Refusal) : Guide.Refusal :=
  ⟨r.reason, "", r.line.map fun l => (0, l.2)⟩

/-- A fault without the place in a guide that it is about. -/
def Fault.unplaced : Fault → Fault
  | .refusal r => .refusal r.unplaced
  | f => f

namespace Guide

open Text (isBlank)

/-- Outcomes that are the same but for places in guides: values that are related, or one fault. -/
inductive Alike {α β : Type} (R : α → β → Prop) : Except Fault α → Except Fault β → Prop
  | ok {x : α} {y : β} (h : R x y) : Alike R (.ok x) (.ok y)
  | error {e f : Fault} (h : e.unplaced = f.unplaced) : Alike R (.error e) (.error f)

namespace Alike

variable {α β γ δ : Type} {R : α → β → Prop} {S : γ → δ → Prop}

theorem bind {x : Except Fault α} {y : Except Fault β} {f : α → Except Fault γ}
    {g : β → Except Fault δ} (h : Alike R x y) (hf : ∀ a b, R a b → Alike S (f a) (g b)) :
    Alike S (x >>= f) (y >>= g) := by
  cases h with
  | ok h => exact hf _ _ h
  | error h => exact .error h

theorem rfl {x : Except Fault α} : Alike Eq x x := by
  cases x with
  | ok x => exact .ok (Eq.refl x)
  | error e => exact .error (Eq.refl _)

theorem trans {x y z : Except Fault α} (h : Alike Eq x y) (h' : Alike Eq y z) : Alike Eq x z := by
  cases h with
  | ok h => exact h ▸ h'
  | error h =>
    cases h' with
    | error h' => exact .error (h.trans h')

theorem symm {x y : Except Fault α} (h : Alike Eq x y) : Alike Eq y x := by
  cases h with
  | ok h => exact .ok h.symm
  | error h => exact .error h.symm

end Alike

/-- Lines that say the same, wherever they stand. -/
def SameText (l m : Line) : Prop := l.text = m.text

section

variable {l m : Line} (h : SameText l m)

include h

theorem refuse_unplaced (r : Reason) :
    (Fault.refusal (l.refuse r)).unplaced = (Fault.refusal (m.refuse r)).unplaced := by
  have ht : l.text = m.text := h
  simp only [Fault.unplaced, Refusal.unplaced, Line.refuse, ht, Option.map_some]

theorem refuse_alike {α : Type} (r : Reason) :
    Alike (α := α) Eq (.error (.refusal (l.refuse r))) (.error (.refusal (m.refuse r))) :=
  .error (refuse_unplaced h r)

theorem modifiers_alike (seen : List (List Char)) (x : Extras) (cs : List (List Char)) :
    Alike Eq (modifiers l seen x cs) (modifiers m seen x cs) := by
  induction cs generalizing seen x with
  | nil => exact .rfl
  | cons c cs ih =>
    unfold modifiers
    dsimp only
    split_ifs
    · exact refuse_alike h _
    · split
      · exact refuse_alike h _
      · refine .bind .rfl fun y z hy => ?_
        subst hy
        exact ih _ y

theorem action_alike (d : Directive) : Alike Eq (d.action l) (d.action m) := by
  cases d with
  | waitMs ds =>
    refine .bind .rfl fun n n' hn => ?_
    subst hn
    cases n with
    | zero => exact refuse_alike h _
    | succ n => exact .rfl
  | includeFragment name => exact refuse_alike h _
  | fill lb a source => cases source <;> exact .rfl
  | _ => exact .rfl

theorem parseLine_alike : Alike Eq (parseLine l) (parseLine m) := by
  have ht : l.text = m.text := h
  unfold parseLine
  rw [ht]
  split
  · exact refuse_alike h _
  · refine .bind (modifiers_alike h _ _ _) fun x y hx => ?_
    subst hx
    split
    · refine .bind (action_alike h _) fun a b ha => ?_
      subst ha
      exact .rfl
    · exact refuse_alike h _

end

/-- Lists of lines that say the same. -/
def SameTexts (ls ms : List Line) : Prop := ls.map (·.text) = ms.map (·.text)

theorem SameTexts.append {ls ls' ms ms' : List Line} (h : SameTexts ls ls')
    (h' : SameTexts ms ms') : SameTexts (ls ++ ms) (ls' ++ ms') := by
  unfold SameTexts at *
  rw [List.map_append, List.map_append, h, h']

theorem sameTexts_cons {l : Line} {ls ms : List Line} (h : SameTexts (l :: ls) ms) :
    ∃ m ms', ms = m :: ms' ∧ SameText l m ∧ SameTexts ls ms' := by
  cases ms with
  | nil => cases h
  | cons m ms' =>
    have h' : l.text = m.text ∧ ls.map (·.text) = ms'.map (·.text) := by
      simpa [SameTexts] using h
    exact ⟨m, ms', rfl, h'.1, h'.2⟩

variable {st : Store} {directory : Option Path}

theorem included?_congr {l m : Line} (h : SameText l m) : included? l = included? m := by
  have ht : l.text = m.text := h
  unfold included?
  rw [ht]

theorem loadFragment_alike {l m : Line} (h : SameText l m) (name : String) :
    Alike Eq (loadFragment st directory l name) (loadFragment st directory m name) := by
  unfold loadFragment
  cases directory with
  | none => exact refuse_alike h _
  | some dir =>
    refine .bind .rfl fun p q hp => ?_
    subst hp
    cases p with
    | none => exact refuse_alike h _
    | some p => exact .rfl

theorem expandLine_alike {l m : Line} (h : SameText l m) :
    Alike SameTexts (expandLine st directory l) (expandLine st directory m) := by
  have ht : l.text = m.text := h
  unfold expandLine
  rw [included?_congr h]
  split
  · exact .ok (by simp [SameTexts, ht])
  · refine .bind (loadFragment_alike h _) fun ls ms hl => ?_
    subst hl
    split
    · exact .error rfl
    · exact .ok rfl

theorem expand_nil : expand st directory [] = .ok [] := rfl

theorem expand_cons (l : Line) (ls : List Line) : expand st directory (l :: ls) = do
    let front ← expandLine st directory l
    let back ← expand st directory ls
    return front ++ back := by
  rw [expand, List.flatMapM_cons]
  rfl

theorem expand_append (ls ms : List Line) : expand st directory (ls ++ ms) = do
    let front ← expand st directory ls
    let back ← expand st directory ms
    return front ++ back := by
  induction ls with
  | nil =>
    rw [List.nil_append, expand_nil, ok_bind]
    cases expand st directory ms <;> rfl
  | cons l ls ih =>
    rw [List.cons_append, expand_cons, expand_cons, ih]
    cases expandLine st directory l with
    | error e => rfl
    | ok front =>
      cases expand st directory ls with
      | error e => rfl
      | ok middle =>
        cases expand st directory ms with
        | error e => rfl
        | ok back => simp only [ok_bind, pure, Except.pure, List.append_assoc]

theorem expand_alike {ls ms : List Line} (h : SameTexts ls ms) :
    Alike SameTexts (expand st directory ls) (expand st directory ms) := by
  induction ls generalizing ms with
  | nil =>
    cases ms with
    | nil => exact .ok rfl
    | cons m ms => cases h
  | cons l ls ih =>
    obtain ⟨m, ms, rfl, hm, hs⟩ := sameTexts_cons h
    rw [expand_cons, expand_cons]
    refine .bind (expandLine_alike hm) fun a b hab => ?_
    refine .bind (ih hs) fun c d hcd => ?_
    exact .ok (hab.append hcd)

theorem parseLines_alike {ls ms : List Line} (h : SameTexts ls ms) :
    Alike Eq (ls.mapM parseLine) (ms.mapM parseLine) := by
  induction ls generalizing ms with
  | nil =>
    cases ms with
    | nil => exact .rfl
    | cons m ms => cases h
  | cons l ls ih =>
    obtain ⟨m, ms, rfl, hm, hs⟩ := sameTexts_cons h
    rw [List.mapM_cons, List.mapM_cons]
    refine .bind (parseLine_alike hm) fun s s' hs' => ?_
    refine .bind (ih hs) fun ss ss' hss => ?_
    rw [hs', hss]
    exact .rfl

/-- Lines without includes stay what they are. -/
theorem expand_of_plain {ls : List Line} (h : ∀ l ∈ ls, included? l = none) :
    expand st directory ls = .ok ls := by
  induction ls with
  | nil => rfl
  | cons l ls ih =>
    have hl : expandLine st directory l = .ok [l] := by
      unfold expandLine
      rw [h l List.mem_cons_self]
    rw [expand_cons, hl, ih fun m hm => h m (List.mem_cons_of_mem l hm)]
    rfl

/-- What stands in place of a line includes nothing. -/
theorem expandLine_plain {l : Line} {ls : List Line} (h : expandLine st directory l = .ok ls) :
    ∀ m ∈ ls, included? m = none := by
  unfold expandLine at h
  split at h
  · next hi =>
    cases h
    intro m hm
    rw [List.mem_singleton.mp hm, hi]
  · obtain ⟨ms, -, h⟩ := bind_eq_ok.mp h
    split at h
    · cases h
    · next hf =>
      cases h
      intro m hm
      simpa using List.find?_eq_none.mp hf m hm

theorem expand_plain {ls ms : List Line} (h : expand st directory ls = .ok ms) :
    ∀ m ∈ ms, included? m = none := by
  induction ls generalizing ms with
  | nil =>
    cases h
    intro m hm
    cases hm
  | cons l ls ih =>
    rw [expand_cons] at h
    obtain ⟨front, hf, h⟩ := bind_eq_ok.mp h
    obtain ⟨back, hb, h⟩ := bind_eq_ok.mp h
    cases h
    intro m hm
    rcases List.mem_append.mp hm with hm | hm
    · exact expandLine_plain hf m hm
    · exact ih hb m hm

/-- What the lines of a text say, silent ones left out. -/
def sayings (s : List Char) : List (List Char) :=
  ((Text.lines s).map Text.trim).filter fun t => !isSilent t

theorem sayings_append_feed (a b : List Char) :
    sayings (a ++ '\n' :: b) = sayings a ++ sayings b := by
  have hsilent : isSilent (Text.trim []) = true := rfl
  unfold sayings
  rcases Text.lines_append_feed a b with h | h
  · rw [h, List.map_append, List.filter_append]
  · rw [h, List.map_append, List.filter_append, List.map_cons,
      List.filter_cons_of_neg (by simp [hsilent])]

theorem map_text_readLines (text source : String) :
    (readLines text source).map (·.text) = (sayings text.toList).map String.ofList := by
  have hz (ls : List (List Char)) (n : Nat) :
      (((ls.zipIdx n).map fun p => (p.2 + 1, Text.trim p.1)).filter fun p => !isSilent p.2).map
          (fun p => String.ofList p.2) =
        ((ls.map Text.trim).filter fun t => !isSilent t).map String.ofList := by
    induction ls generalizing n with
    | nil => rfl
    | cons l ls ih =>
      have ih := ih (n + 1)
      simp only [List.zipIdx_cons, List.map_cons, List.filter_cons]
      cases isSilent (Text.trim l) with
      | true => simpa using ih
      | false => simpa using ih
  rw [readLines, List.map_map]
  exact hz (Text.lines text.toList) 0

/-- A word behind a blank is read to its end. -/
theorem Directive.wordToEnd?_blank {s : List Char} (hn : s ≠ [])
    (h : ∀ c ∈ s, isBlank c = false) : wordToEnd? (' ' :: s) = some s := by
  have hall : ∀ c ∈ s, (!isBlank c) = true := fun c hc => by simp [h c hc]
  obtain ⟨c, r, rfl⟩ := List.exists_cons_of_ne_nil hn
  have hblank : (' ' :: c :: r).dropWhile isBlank = c :: r := by
    rw [List.dropWhile_cons_of_pos rfl]
    exact List.dropWhile_cons_of_neg (by simp [h c List.mem_cons_self])
  unfold wordToEnd? run?
  rw [hblank, List.takeWhile_eq_self_iff.mpr hall, List.dropWhile_eq_nil_iff.mpr hall]

/-- The line that includes the fragment of a name. -/
def includeText (name : String) : String := "Include fragment: " ++ name

/-- The name of a fragment leads to a file, which holds a text. -/
structure LeadsTo (st : Store) (directory : Path) (name : String) (file : Path) (text : String) :
    Prop where
  nonempty : name.toList ≠ []
  unblank : name.toList.all (!isBlank ·) = true
  found : firstFile? st (fragmentPaths directory name) = .ok (some file)
  content : ∃ bytes, st.read file = .ok bytes ∧ Text.Utf8.decode bytes = .ok text.toList

namespace LeadsTo

variable {dir file : Path} {name text : String} (h : LeadsTo st dir name file text)

theorem toList_includeText (name : String) :
    (includeText name).toList = "Include fragment: ".toList ++ name.toList :=
  String.toList_append

include h

theorem isBlank_eq_false {c : Char} (hc : c ∈ name.toList) : isBlank c = false := by
  simpa using List.all_eq_true.mp h.unblank c hc

theorem sayings_includeText :
    sayings (includeText name).toList = [(includeText name).toList] := by
  have hlead : "Include fragment: ".toList.any Text.isBreak = false := by decide +kernel
  have hbreak : ∀ c ∈ (includeText name).toList, Text.isBreak c = false := by
    intro c hc
    rw [toList_includeText] at hc
    rcases List.mem_append.mp hc with hc | hc
    · simpa using List.any_eq_false.mp hlead c hc
    · exact Text.isBreak_of_not_isBlank (h.isBlank_eq_false hc)
  have hne : (includeText name).toList ≠ [] := by
    rw [toList_includeText]
    simp
  have htrim : Text.trim (includeText name).toList = (includeText name).toList := by
    refine Text.trim_of_ends (fun c hc => ?_) fun c hc => ?_
    · rw [toList_includeText] at hc
      cases hc
      rfl
    · rw [toList_includeText, List.getLast?_append, List.getLast?_eq_some_getLast h.nonempty] at hc
      cases hc
      exact h.isBlank_eq_false (List.getLast_mem h.nonempty)
  have hsilent : isSilent (includeText name).toList = false := by
    rw [toList_includeText]
    rfl
  rw [sayings, Text.lines_of_unbroken hne hbreak]
  simp [htrim, hsilent]

theorem included?_includeText {l : Line} (hl : l.text = includeText name) :
    included? l = some name.toList := by
  have hinclude : Directive.includeFragment? (includeText name).toList =
      Directive.includeFragment <$> Directive.wordToEnd? (' ' :: name.toList) := by
    rw [toList_includeText]
    rfl
  unfold included?
  rw [hl, hinclude, Directive.wordToEnd?_blank h.nonempty fun c hc => h.isBlank_eq_false hc]
  rfl

/-- What is loaded for the name says what the text does. -/
theorem loadFragment_ok (l : Line) :
    loadFragment st (some dir) l name = .ok (readLines text file.text) := by
  obtain ⟨bytes, hr, hd⟩ := h.content
  have ht : readText st file = .ok (String.ofList (Text.unifyLineEnds text.toList)) := by
    simp only [readText, hr, hd, Except.mapError, bind, Except.bind]
  have hl : readLines (String.ofList (Text.unifyLineEnds text.toList)) file.text =
      readLines text file.text := by
    rw [readLines, numbered, String.toList_ofList, Text.lines_unifyLineEnds]
    rfl
  unfold loadFragment
  dsimp only
  rw [h.found, ok_bind]
  dsimp only
  rw [ht, ok_bind, hl]
  rfl

theorem expandLine_eq {l : Line} (hl : l.text = includeText name) :
    expandLine st (some dir) l =
      match (readLines text file.text).find? fun f => (included? f).isSome with
      | some f => .error (.refusal (f.refuse .nestedFragment))
      | none => .ok (readLines text file.text) := by
  have hload : loadFragment st (some dir) l (str name.toList) = .ok (readLines text file.text) := by
    rw [str, String.ofList_toList]
    exact h.loadFragment_ok l
  cases hf : (readLines text file.text).find? fun f => (included? f).isSome with
  | none => simp only [expandLine, h.included?_includeText hl, hload, ok_bind, hf]
  | some f => simp only [expandLine, h.included?_includeText hl, hload, ok_bind, hf]

end LeadsTo

/-- Texts as one, each behind the one before on a line of its own. -/
def joined (before middle after : String) : String := before ++ "\n" ++ middle ++ "\n" ++ after

theorem sameTexts_joined (source before middle after : String) (ms : List Line)
    (hm : ms.map (·.text) = (sayings middle.toList).map String.ofList) :
    SameTexts (readLines (joined before middle after) source)
      (readLines before source ++ (ms ++ readLines after source)) := by
  have hj : (joined before middle after).toList =
      before.toList ++ '\n' :: (middle.toList ++ '\n' :: after.toList) := by
    simp [joined]
  unfold SameTexts
  simp only [List.map_append, map_text_readLines, hj, sayings_append_feed, hm]

theorem parse_alike {source text : String} {ls : List Line}
    (h : SameTexts (readLines text source) ls) :
    Alike Eq (parse st directory source text) (expand st directory ls >>= (·.mapM parseLine)) :=
  .bind (expand_alike h) fun _ _ hab => parseLines_alike hab

theorem expand_singleton (l : Line) : expand st directory [l] = expandLine st directory l := by
  rw [expand_cons]
  cases expandLine st directory l with
  | error e => rfl
  | ok ls => simp only [ok_bind, expand_nil, pure, Except.pure, List.append_nil]

/-- Where lines stand for others, they do so between any lines. -/
theorem expand_middle {ls ms : List Line} (h : expand st directory ls = expand st directory ms)
    (before after : List Line) : expand st directory (before ++ (ls ++ after)) =
      expand st directory (before ++ (ms ++ after)) := by
  rw [expand_append, expand_append, expand_append before, expand_append ms, h]

/-- A fault of lines counts unless there is one before them. -/
theorem expand_middle_error {ls : List Line} {e : Fault} (h : expand st directory ls = .error e)
    (before after : List Line) : expand st directory (before ++ (ls ++ after)) = (do
      let _ ← expand st directory before
      .error e) := by
  rw [expand_append, expand_append, h]
  rfl

variable {dir file : Path} {name text : String}

/-- A guide that includes a fragment comes out as the guide that has the fragment's text in place of
the line that includes it, up to the places of its lines. A fragment that itself includes another
is refused when it is included, so that no line that comes of a fragment is ever taken for an
include. -/
theorem parse_include (h : LeadsTo st dir name file text) (source before after : String) :
    let including := joined before (includeText name) after
    ((∀ l ∈ readLines text file.text, included? l = none) →
      Alike Eq (parse st (some dir) source including)
        (parse st (some dir) source (joined before text after))) ∧
    ((∃ l ∈ readLines text file.text, included? l ≠ none) →
      ∃ f ∈ readLines text file.text, included? f ≠ none ∧
        (∀ l : Line, l.text = includeText name →
          expandLine st (some dir) l = .error (.refusal (f.refuse .nestedFragment))) ∧
        Alike Eq (parse st (some dir) source including) (do
          let _ ← expand st (some dir) (readLines before source)
          .error (.refusal (f.refuse .nestedFragment)))) ∧
    ∀ ls, expand st (some dir) (readLines including source) = .ok ls →
      ∀ l ∈ ls, included? l = none := by
  intro including
  let line : Line := ⟨source, 0, includeText name⟩
  have hline := h.expandLine_eq (l := line) rfl
  have hincluding : SameTexts (readLines including source)
      (readLines before source ++ ([line] ++ readLines after source)) := by
    refine sameTexts_joined source before (includeText name) after [line] ?_
    rw [h.sayings_includeText]
    simp [line]
  have hparse : Alike Eq (parse st (some dir) source including)
      (expand st (some dir) (readLines before source ++ ([line] ++ readLines after source)) >>=
        (·.mapM parseLine)) := parse_alike hincluding
  rw [← expand_singleton] at hline
  refine ⟨fun hplain => ?_, fun ⟨l, hl, hi⟩ => ?_, fun ls hls => expand_plain hls⟩
  · have hfind : (readLines text file.text).find? (fun f => (included? f).isSome) = none :=
      List.find?_eq_none.mpr fun l hl => by simp [hplain l hl]
    have hinlined : SameTexts (readLines (joined before text after) source)
        (readLines before source ++ (readLines text file.text ++ readLines after source)) :=
      sameTexts_joined source before text after _ (map_text_readLines text file.text)
    have hsame : expand st (some dir) [line] = expand st (some dir) (readLines text file.text) := by
      rw [hline, hfind, expand_of_plain hplain]
    rw [expand_middle hsame] at hparse
    exact hparse.trans (parse_alike hinlined).symm
  · have hsome : ((readLines text file.text).find? fun f => (included? f).isSome).isSome :=
      List.find?_isSome.mpr ⟨l, hl, Option.isSome_iff_ne_none.mpr hi⟩
    obtain ⟨f, hf⟩ := Option.isSome_iff_exists.mp hsome
    have hfi : (included? f).isSome := by simpa using List.find?_some hf
    refine ⟨f, List.mem_of_find?_eq_some hf, Option.isSome_iff_ne_none.mp hfi, fun l hl => ?_, ?_⟩
    · rw [h.expandLine_eq hl, hf]
    · rw [hf] at hline
      rw [expand_middle_error hline] at hparse
      refine hparse.trans ?_
      cases expand st (some dir) (readLines before source) <;> exact .rfl

/-- A fragment of one directive, and one that includes itself. -/
theorem parse_include_greeting :
    let greeting := "# Greeting\r\n\r\nClick Hello (tour.home.btn.hello)\r\n"
    let loop := "Say: Again\nInclude fragment: loop"
    let st : Store := ⟨[(["fragments"], .directory),
      (["fragments", "greeting.md"], .file (Text.Utf8.encode greeting.toList)),
      (["fragments", "loop.md"], .file (Text.Utf8.encode loop.toList))]⟩
    let dir : Path := "fragments"
    LeadsTo st dir "greeting" (dir / "greeting.md") greeting ∧
    Alike Eq (parse st (some dir) "guide" (joined "Say: Hi" (includeText "greeting") "Wait 5ms"))
      (parse st (some dir) "guide" (joined "Say: Hi" greeting "Wait 5ms")) ∧
    LeadsTo st dir "loop" (dir / "loop.md") loop ∧
    Alike Eq (parse st (some dir) "guide" (joined "Say: Hi" (includeText "loop") "Wait 5ms"))
      (.error (.refusal ⟨.nestedFragment, "fragments/loop.md",
        some (2, "Include fragment: loop")⟩)) := by
  intro greeting loop st dir
  have hg : LeadsTo st dir "greeting" (dir / "greeting.md") greeting :=
    ⟨by decide +kernel, by decide +kernel, ok_of_toOption (by decide +kernel),
      _, ok_of_toOption (by decide +kernel), Text.Utf8.decode_encode _⟩
  have hl : LeadsTo st dir "loop" (dir / "loop.md") loop :=
    ⟨by decide +kernel, by decide +kernel, ok_of_toOption (by decide +kernel),
      _, ok_of_toOption (by decide +kernel), Text.Utf8.decode_encode _⟩
  refine ⟨hg, (parse_include hg "guide" "Say: Hi" "Wait 5ms").1 (by decide +kernel), hl, ?_⟩
  have honly : ∀ f ∈ readLines loop (dir / "loop.md").text, included? f ≠ none →
      f = ⟨"fragments/loop.md", 2, "Include fragment: loop"⟩ := by decide +kernel
  have hfirst : expand st (some dir) (readLines "Say: Hi" "guide") = .ok _ :=
    expand_of_plain (by decide +kernel)
  obtain ⟨f, hf, hi, -, ha⟩ :=
    (parse_include hl "guide" "Say: Hi" "Wait 5ms").2.1 (by decide +kernel)
  rw [hfirst, ok_bind, honly f hf hi] at ha
  exact ha

end Guide

end Walkthrough
