import Walkthrough.Proofs.Guide.Fragment
import Walkthrough.Proofs.Guide.Keyword
import Walkthrough.Proofs.Guide.Modified
import Walkthrough.Proofs.Identifier
/-!
The documented forms of a directive. A line that has one of them is read into the action it states,
part by part, whatever its label and its free texts look like.
-/

namespace Walkthrough

namespace Guide

open Text (isBlank)

/-- A text that does not end in white space. -/
structure Ends (s : List Char) : Prop where
  nonempty : s ≠ []
  unblank : ∀ c ∈ s.getLast?, isBlank c = false

namespace Ends

theorem append {t : List Char} (h : Ends t) (s : List Char) : Ends (s ++ t) := by
  refine ⟨List.append_ne_nil_of_right_ne_nil s h.nonempty, fun c hc => h.unblank c ?_⟩
  rwa [List.getLast?_append_of_ne_nil s h.nonempty] at hc

theorem of_getLast? {s : List Char} {c : Char} (hs : s.getLast? = some c)
    (hc : isBlank c = false) : Ends s := by
  refine ⟨fun h => ?_, fun d hd => ?_⟩
  · rw [h] at hs
    cases hs
  · rw [hs] at hd
    cases hd
    exact hc

theorem of_forall {s : List Char} (hn : s ≠ []) (h : ∀ c ∈ s, isBlank c = false) : Ends s :=
  ⟨hn, fun c hc => h c (List.mem_of_getLast? hc)⟩

end Ends

/-- A label as the forms document it. -/
structure IsLabel (l : List Char) : Prop where
  nonempty : l ≠ []
  trimmed : Text.trim l = l
  noBracket : '(' ∉ l
  noColon : ':' ∉ l
  oneLine : '\n' ∉ l

/-- A text that can close a line. -/
structure Closes (v : List Char) : Prop extends Ends v where
  oneLine : '\n' ∉ v

/-- A free text behind a word. -/
structure IsMessage (x : List Char) : Prop extends Closes x where
  head : Unblank x

/-- Digits, at least one. -/
structure IsDigits (ds : List Char) : Prop where
  nonempty : ds ≠ []
  digits : ∀ c ∈ ds, Text.isDigit c = true

/-- Digits of a whole number, no more than a number may have. -/
structure IsNumber (ds : List Char) : Prop extends IsDigits ds where
  short : ds.length ≤ Json.digitLimit

/-- A name in parentheses behind what it belongs to. -/
def inBrackets (a : List Char) : List Char := " (".toList ++ (a ++ ")".toList)

/-- A timeout in writing, if one is given. -/
def timeoutText : Option (List Char) → List Char
  | none => []
  | some ds => " timeout:".toList ++ ds

/-- The timeout that is given, or the usual one. -/
def statedTimeout : Option (List Char) → Int
  | none => defaultTimeout
  | some ds => Text.digitsValue ds

def labelText : Option (List Char) → List Char
  | none => []
  | some l => ' ' :: l

def flagText : Option Bool → List Char
  | none => []
  | some flag => " fullPage:".toList ++ (if flag then "true" else "false").toList

def targetText : Option (List Char) → List Char
  | none => []
  | some n => " target:".toList ++ n

/-- A text in a documented form and the action it states. -/
inductive Documented : List Char → Action → Prop
  | narration {word : String} {x : List Char} (hw : word = "Narration: " ∨ word = "Say: ")
    (hx : IsMessage x) : Documented (word.toList ++ x) (.narration (str x))
  | goto {r : List Char} (hn : r ≠ []) (hr : ∀ c ∈ r, isBlank c = false) :
    Documented ("Goto routeKey: ".toList ++ r) (.goto (str r))
  | click {l a : List Char} (hl : IsLabel l) (ha : isAnchor a = true) :
    Documented ("Click ".toList ++ (l ++ inBrackets a)) (.click (str l) (str a) none)
  | fillValue {l a v : List Char} (hl : IsLabel l) (ha : isAnchor a = true) (hv : Closes v) :
    Documented ("Fill ".toList ++ (l ++ (inBrackets a ++ (" value:".toList ++ v))))
      (.fill (str l) (str a) (some (str v)) none none)
  | fillVariable {l a n : List Char} (hl : IsLabel l) (ha : isAnchor a = true)
    (hn : isVariable n = true) :
    Documented ("Fill ".toList ++ (l ++ (inBrackets a ++ (" env:".toList ++ n))))
      (.fill (str l) (str a) none (some (str n)) none)
  | waitForEvent {l e : List Char} {t : Option (List Char)} (hl : IsLabel l)
    (he : isEvent e = true) (ht : ∀ ds ∈ t, IsNumber ds) :
    Documented ("Wait for ".toList ++ (l ++ (inBrackets e ++ timeoutText t)))
      (.waitForEvent (str l) (str e) (statedTimeout t))
  | expectVisible {w v l a : List Char} {t : Option (List Char)}
    (hw : w.map Char.toLower = "expect".toList) (hv : v.map Char.toLower = "visible".toList)
    (hl : IsLabel l) (ha : isAnchor a = true) (ht : ∀ ds ∈ t, IsNumber ds) :
    Documented (w ++ (' ' :: (v ++ (' ' :: (l ++ (inBrackets a ++ timeoutText t))))))
      (.expectVisible (str l) (str a) (statedTimeout t))
  | waitMs {ds : List Char} (hd : IsNumber ds) (hpos : 0 < Text.digitsValue ds) :
    Documented ("Wait ".toList ++ (ds ++ "ms".toList)) (.waitMs (Text.digitsValue ds))
  | screenshot {word : String} {l : Option (List Char)} {n : List Char} {flag : Option Bool}
    (hw : word = "Screenshot" ∨ word = "Snapshot") (hl : ∀ lb ∈ l, IsLabel lb)
    (hn : isShotName n = true) :
    Documented (word.toList ++ (labelText l ++ (" name:".toList ++ (n ++ flagText flag))))
      (.screenshot (str n) (l.map str) flag)
  | annotate {l t : Option (List Char)} {x : List Char} (hl : ∀ lb ∈ l, IsLabel lb)
    (ht : ∀ n ∈ t, isShotName n = true) (hx : IsMessage x) :
    Documented ("Annotate".toList ++ (labelText l ++ (targetText t ++
      (" instructions: ".toList ++ x))))
      (.annotate (str (l.getD [])) (str x) (t.map str))

theorem Closes.closing? {v : List Char} (h : Closes v) : closing? v = some v := by
  obtain ⟨c, hc⟩ := List.getLast?_isSome.mpr h.nonempty |> Option.isSome_iff_exists.mp
  have hline : v.contains '\n' = false := by simpa using h.oneLine
  rw [Guide.closing?, hline, hc, if_pos]
  simp [h.unblank c hc]

theorem IsMessage.messageAfter? {x : List Char} (h : IsMessage x) (word : String) :
    Directive.messageAfter? word (word.toList ++ ' ' :: x) = some x := by
  have hblank : (' ' :: x).dropWhile isBlank = x :=
    Text.dropWhile_append_of_head? isGap_blank.2 h.head
  simp only [Directive.messageAfter?, after?_append, Option.bind_eq_bind, Option.bind_some, hblank,
    h.closing?]

theorem IsDigits.ends {ds : List Char} (h : IsDigits ds) : Ends ds :=
  .of_forall h.nonempty fun c hc => Text.isBlank_of_isDigit (h.digits c hc)

theorem IsDigits.digitsToEnd? {ds : List Char} (h : IsDigits ds) : digitsToEnd? ds = some ds := by
  have hrun := run?_append (r := []) h.nonempty h.digits (by simp)
  rw [List.append_nil] at hrun
  rw [Guide.digitsToEnd?, hrun]

theorem IsNumber.number {ds : List Char} (h : IsNumber ds) :
    number ds = .ok (Text.digitsValue ds) := by
  rw [Guide.number, if_neg (Nat.not_lt.mpr h.short)]

/-- Behind a blank is what does not begin with one. -/
theorem afterBlanks?_blank {r : List Char} (hr : Unblank r) : afterBlanks? (' ' :: r) = some r :=
  afterBlanks?_gap isGap_blank hr

theorem parenthesized?_inBrackets {form : List Char → Bool} {a : List Char} (hf : form a = true)
    (ha : ∀ c ∈ a, isNameChar c = true) (r : List Char) :
    parenthesized? form (inBrackets a ++ r) = some (a, r) := by
  have hshape : inBrackets a ++ r = ' ' :: '(' :: (a ++ ')' :: r) := by simp [inBrackets]
  have hclose : ∀ c ∈ a, (c != ')') = true := by
    intro c hc
    rw [bne_iff_ne]
    rintro rfl
    cases ha _ hc
  have hblank : (' ' :: '(' :: (a ++ ')' :: r)).dropWhile isBlank = '(' :: (a ++ ')' :: r) := rfl
  have hinner : (a ++ ')' :: r).takeWhile (· != ')') = a := by
    rw [List.takeWhile_append_of_pos hclose]
    simp
  have hrest : (a ++ ')' :: r).dropWhile (· != ')') = ')' :: r := by
    rw [List.dropWhile_append_of_pos hclose]
    rfl
  simp only [hshape, parenthesized?, hblank, hrest, hinner, hf, if_true]

theorem timeoutToEnd?_timeoutText {word : List Char → Option (List Char)}
    (hword : ∀ s, word ("timeout:".toList ++ s) = some s) {t : Option (List Char)}
    (ht : ∀ ds ∈ t, IsNumber ds) : Directive.timeoutToEnd? word (timeoutText t) = some t := by
  cases t with
  | none => rfl
  | some ds =>
    have hblank : afterBlanks? (' ' :: ("timeout:".toList ++ ds)) =
        some ("timeout:".toList ++ ds) := afterBlanks?_blank (by rintro _ ⟨⟩; rfl)
    have hshape : timeoutText (some ds) = ' ' :: ("timeout:".toList ++ ds) := rfl
    simp only [hshape, Directive.timeoutToEnd?, hblank, hword, (ht ds rfl).digitsToEnd?,
      Option.bind_eq_bind, Option.bind_some]

/-- A form that reads nothing that stands behind other text, up to what it is asked to read. -/
def PassesOver {α : Type} (form : List Char → Option α) (rest : List Char) : Prop :=
  ∀ w z, (∀ c ∈ w, isBlank c = true) → z ≠ [] → Unblank z → '(' ∉ z → ':' ∉ z →
    form (w ++ (z ++ rest)) = none

theorem unblank_append {z : List Char} (hz : z ≠ []) (hu : Unblank z) (r : List Char) :
    Unblank (z ++ r) := by
  obtain ⟨c, z, rfl⟩ := List.exists_cons_of_ne_nil hz
  exact hu

theorem parenthesized?_passesOver (form : List Char → Bool) (rest : List Char) :
    PassesOver (parenthesized? form) rest := by
  intro w z hw hz hu hopen _
  obtain ⟨c, z, rfl⟩ := List.exists_cons_of_ne_nil hz
  rw [parenthesized?, Text.dropWhile_append_of_head? hw (unblank_append hz hu rest),
    List.cons_append]
  split
  · next he => exact absurd (List.cons.inj he).1.symm fun h => hopen (h ▸ List.mem_cons_self)
  · rfl

/-- Behind white space, if there is any, is the text that does not begin with it. -/
theorem eq_of_mem_afterBlanks? {w z rest r : List Char} (hw : ∀ c ∈ w, isBlank c = true)
    (hz : z ≠ []) (hu : Unblank z) (hr : r ∈ afterBlanks? (w ++ (z ++ rest))) : r = z ++ rest := by
  have hbehind := unblank_append hz hu rest
  by_cases hn : w = []
  · subst hn
    rw [List.nil_append, afterBlanks?_of_unblank hbehind] at hr
    cases hr
  · rw [afterBlanks?_gap ⟨hn, hw⟩ hbehind] at hr
    cases hr
    rfl

namespace IsLabel

variable {l : List Char} (hl : IsLabel l)

include hl

theorem ends : Ends l := ⟨hl.nonempty, (Text.trim_eq_self_iff.mp hl.trimmed).2⟩

theorem labels : Labels l :=
  ⟨hl.nonempty, (Text.trim_eq_self_iff.mp hl.trimmed).1, hl.oneLine⟩

theorem opensWith {α : Type} {form : List Char → Option α} {rest : List Char} {a : α}
    (ha : form rest = some a) (hp : PassesOver form rest) : OpensWith form (l ++ rest) l a := by
  refine ⟨rest, rfl, hl.labels, ha, fun x y hxy hx hy => ?_⟩
  obtain ⟨w, z, rfl, hw, hz⟩ := exists_gap y
  have hmem {c : Char} (hc : c ∈ z) : c ∈ l := by
    rw [hxy]
    exact List.mem_append_right x (List.mem_append_right w hc)
  have hzn : z ≠ [] := by
    -- the last character of a label is no white space
    rintro rfl
    rw [List.append_nil] at hy hxy
    have hlast := hl.ends.unblank (w.getLast hy) (by
      rw [hxy, List.getLast?_append_of_ne_nil x hy, List.getLast?_eq_some_getLast hy]
      rfl)
    rw [hw _ (List.getLast_mem hy)] at hlast
    cases hlast
  rw [List.append_assoc]
  exact hp w z hw hzn hz (fun h => hl.noBracket (hmem h)) fun h => hl.noColon (hmem h)

theorem labelled_eq {α : Type} {form : List Char → Option α} {rest : List Char} {a : α}
    (ha : form rest = some a) (hp : PassesOver form rest) :
    labelled form (' ' :: (l ++ rest)) = some (l, a) :=
  labelled_of_opensWith isGap_blank (unblank_append hl.nonempty hl.labels.2.1 rest)
    (hl.opensWith ha hp)

/-- What passes over a label does not read it. -/
theorem form_eq_none {α : Type} {form : List Char → Option α} {rest : List Char}
    (hp : PassesOver form rest) : form (' ' :: (l ++ rest)) = none :=
  hp [' '] l isGap_blank.2 hl.nonempty hl.labels.2.1 hl.noBracket hl.noColon

end IsLabel

namespace Directive

section

variable {rest : List Char}

theorem passesOver_anchorToEnd? : PassesOver anchorToEnd? rest := by
  intro w z hw hz hu hopen hcolon
  rw [anchorToEnd?, parenthesized?_passesOver isAnchor rest w z hw hz hu hopen hcolon]

theorem passesOver_anchorAndSource? : PassesOver anchorAndSource? rest := by
  intro w z hw hz hu hopen hcolon
  rw [anchorAndSource?, parenthesized?_passesOver isAnchor rest w z hw hz hu hopen hcolon]
  rfl

theorem passesOver_nameAndTimeout? (form : List Char → Bool)
    (word : List Char → Option (List Char)) : PassesOver (nameAndTimeout? form word) rest := by
  intro w z hw hz hu hopen hcolon
  rw [nameAndTimeout?, parenthesized?_passesOver form rest w z hw hz hu hopen hcolon]
  rfl

theorem passesOver_nameAndFlag? : PassesOver nameAndFlag? (' ' :: rest) := by
  intro w z hw hz hu _ hcolon
  rw [Option.eq_none_iff_forall_ne_some]
  intro p hp
  simp only [nameAndFlag?, Option.bind_eq_bind, Option.bind_eq_some_iff] at hp
  obtain ⟨r, hr, s, hs, -⟩ := hp
  rw [eq_of_mem_afterBlanks? hw hz hu hr,
    after?_of_no_colon (n := "name".toList) rfl (by decide) hcolon rfl] at hs
  cases hs

theorem passesOver_targetAndInstructions? :
    PassesOver targetAndInstructions? (' ' :: rest) := by
  intro w z hw hz hu _ hcolon
  rw [Option.eq_none_iff_forall_ne_some]
  intro p hp
  simp only [targetAndInstructions?, instructions?, messageAfter?, Option.bind_eq_bind,
    Option.or_eq_some_iff, Option.bind_eq_some_iff, Option.map_eq_some_iff] at hp
  obtain ⟨r, hr, s, hs, -⟩ | ⟨-, i, ⟨r, hr, s, hs, -⟩, -⟩ := hp
  · rw [eq_of_mem_afterBlanks? hw hz hu hr,
      after?_of_no_colon (n := "target".toList) rfl (by decide) hcolon rfl] at hs
    cases hs
  · rw [eq_of_mem_afterBlanks? hw hz hu hr,
      after?_of_no_colon (n := "instructions".toList) rfl (by decide) hcolon rfl] at hs
    cases hs

end

theorem ofText?_narration_message {word : String} {x : List Char}
    (hw : word = "Narration: " ∨ word = "Say: ") (hx : IsMessage x) :
    ofText? (word.toList ++ x) = some (narration x) := by
  have hread {k : String} (hk : (k, narration?) ∈ keywords) := ofText?_keyword hk (' ' :: x)
  obtain rfl | rfl := hw
  · have hshape : "Narration: ".toList ++ x = "Narration:".toList ++ ' ' :: x := rfl
    rw [hshape, hread (by simp [keywords]), narration?, hx.messageAfter?]
    rfl
  · have hshape : "Say: ".toList ++ x = "Say:".toList ++ ' ' :: x := rfl
    have hother : messageAfter? "Narration:" ("Say:".toList ++ ' ' :: x) = none := rfl
    rw [hshape, hread (by simp [keywords]), narration?, hother, hx.messageAfter?]
    rfl

theorem ofText?_goto_key {r : List Char} (hn : r ≠ []) (hr : ∀ c ∈ r, isBlank c = false) :
    ofText? ("Goto routeKey: ".toList ++ r) = some (goto r) := by
  have hshape : "Goto routeKey: ".toList ++ r =
      "Goto".toList ++ ' ' :: ("routeKey:".toList ++ ' ' :: r) := rfl
  have hblank : afterBlanks? (' ' :: ("routeKey:".toList ++ ' ' :: r)) =
      some ("routeKey:".toList ++ ' ' :: r) := afterBlanks?_blank (by rintro _ ⟨⟩; rfl)
  rw [hshape, ofText?_keyword (f := goto?) (by simp [keywords])]
  simp only [goto?, after?_append, hblank, wordToEnd?_blank hn hr, Option.bind_eq_bind,
    Option.bind_some]
  rfl

theorem fillSource?_value {v : List Char} (hv : Closes v) :
    fillSource? ("value:".toList ++ v) = some (.value v) := by
  rw [fillSource?, after?_append]
  dsimp only
  rw [hv.closing?]
  rfl

theorem fillSource?_variable {n : List Char} (hn : isVariable n = true) :
    fillSource? ("env:".toList ++ n) = some (.variable_ n) := by
  have hother : after? "value:" ("env:".toList ++ n) = none := rfl
  rw [fillSource?, hother]
  dsimp only
  rw [after?_append, Option.bind_eq_bind, Option.bind_some, if_pos hn]

/-- What is read in full between brackets is an anchor. -/
theorem anchorToEnd?_inBrackets_iff {a : List Char} :
    anchorToEnd? (inBrackets a) = some a ↔ isAnchor a = true := by
  constructor
  · intro h
    unfold anchorToEnd? at h
    split at h
    · next b hread =>
      cases h
      exact form_of_parenthesized? hread
    · cases h
  · intro ha
    have hbrackets := parenthesized?_inBrackets ha (fun c => isNameChar_of_isAnchor ha) []
    rw [List.append_nil] at hbrackets
    rw [anchorToEnd?, hbrackets]

section

variable {l a : List Char} (hl : IsLabel l) (ha : isAnchor a = true)

include hl ha

theorem ofText?_click_label :
    ofText? ("Click ".toList ++ (l ++ inBrackets a)) = some (click l a) := by
  have hshape : "Click ".toList ++ (l ++ inBrackets a) =
      "Click".toList ++ (' ' :: (l ++ inBrackets a)) := rfl
  rw [hshape, ofText?_click,
    hl.labelled_eq (anchorToEnd?_inBrackets_iff.mpr ha) passesOver_anchorToEnd?]
  rfl

theorem ofText?_fill_label {r : List Char} {source : FillSource}
    (hr : Unblank r) (hs : fillSource? r = some source) :
    ofText? ("Fill ".toList ++ (l ++ (inBrackets a ++ ' ' :: r))) = some (fill l a source) := by
  have hanchor : anchorAndSource? (inBrackets a ++ ' ' :: r) = some (a, source) := by
    simp only [anchorAndSource?, parenthesized?_inBrackets ha (fun c => isNameChar_of_isAnchor ha),
      Option.bind_eq_bind, Option.bind_some, afterBlanks?_blank hr, hs]
  have hshape : "Fill ".toList ++ (l ++ (inBrackets a ++ ' ' :: r)) =
      "Fill".toList ++ (' ' :: (l ++ (inBrackets a ++ ' ' :: r))) := rfl
  rw [hshape, ofText?_fill, hl.labelled_eq hanchor passesOver_anchorAndSource?]
  rfl

end

theorem nameAndTimeout?_inBrackets {form : List Char → Bool} {n : List Char}
    {word : List Char → Option (List Char)} {t : Option (List Char)} (hf : form n = true)
    (hn : ∀ c ∈ n, isNameChar c = true) (hword : ∀ s, word ("timeout:".toList ++ s) = some s)
    (ht : ∀ ds ∈ t, IsNumber ds) :
    nameAndTimeout? form word (inBrackets n ++ timeoutText t) = some (n, t) := by
  simp only [nameAndTimeout?, parenthesized?_inBrackets hf hn, timeoutToEnd?_timeoutText hword ht,
    Option.bind_eq_bind, Option.bind_some]

theorem ofText?_waitFor_label {l e : List Char} {t : Option (List Char)} (hl : IsLabel l)
    (he : isEvent e = true) (ht : ∀ ds ∈ t, IsNumber ds) :
    ofText? ("Wait for ".toList ++ (l ++ (inBrackets e ++ timeoutText t))) =
      some (waitForEvent l e t) := by
  have hevent := nameAndTimeout?_inBrackets (t := t) he (fun c => isNameChar_of_isEvent he)
    (after?_append "timeout:") ht
  have hshape (s : List Char) : "Wait for ".toList ++ s =
      "Wait".toList ++ ([' '] ++ ("for".toList ++ (' ' :: s))) := rfl
  rw [hshape, ofText?_waitFor isGap_blank,
    hl.labelled_eq hevent (passesOver_nameAndTimeout? _ _)]
  rfl

/-- A word in letters of any case is the word. -/
theorem afterAnyCase?_toLower (w : List Char) : afterAnyCase? (w.map Char.toLower) w = some [] := by
  induction w with
  | nil => rfl
  | cons c w ih =>
    rw [List.map_cons, afterAnyCase?, if_pos (by simp [sameLetter])]
    exact ih

theorem isAnchorAnyCase_of_isAnchor {s : List Char} (h : isAnchor s = true) :
    isAnchorAnyCase s = true := by
  rw [isAnchor, isAnchorOf] at h
  rw [isAnchorAnyCase]
  generalize Text.pieces '.' s = ps at h ⊢
  obtain - | ⟨root, - | ⟨a, - | ⟨b, parts⟩⟩⟩ := ps
  · cases h
  · cases h
  · cases h
  · simp only [Bool.and_eq_true, beq_iff_eq, List.all_eq_true] at h ⊢
    obtain ⟨rfl, hparts⟩ := h
    refine ⟨rfl, fun p hp => ?_⟩
    have hpart := hparts p hp
    rw [allOf, Bool.and_eq_true, List.all_eq_true] at hpart ⊢
    exact ⟨hpart.1, fun c hc => by simp [isPartCharAnyCase, hpart.2 c hc]⟩

theorem ofText?_expectVisible_label {w v l a : List Char} {t : Option (List Char)}
    (hw : w.map Char.toLower = "expect".toList) (hv : v.map Char.toLower = "visible".toList)
    (hl : IsLabel l) (ha : isAnchor a = true) (ht : ∀ ds ∈ t, IsNumber ds) :
    ofText? (w ++ (' ' :: (v ++ (' ' :: (l ++ (inBrackets a ++ timeoutText t)))))) =
      some (expectVisible l a t) := by
  have hword : afterAnyCase? "timeout:".toList "timeout:".toList = some [] := rfl
  have hanchor := nameAndTimeout?_inBrackets (t := t) (isAnchorAnyCase_of_isAnchor ha)
    (fun c => isNameChar_of_isAnchor ha) (afterAnyCase?_append hword) ht
  have hw := hw ▸ afterAnyCase?_toLower w
  have hv := hv ▸ afterAnyCase?_toLower v
  have hread := ofText?_expectVisible hw isGap_blank hv
    (' ' :: (l ++ (inBrackets a ++ timeoutText t)))
  rw [List.singleton_append] at hread
  rw [hread, hl.labelled_eq hanchor (passesOver_nameAndTimeout? _ _)]
  rfl

theorem ofText?_waitMs {ds : List Char} (h : IsDigits ds) :
    ofText? ("Wait ".toList ++ (ds ++ "ms".toList)) = some (waitMs ds) := by
  obtain ⟨c, r, rfl⟩ := List.exists_cons_of_ne_nil h.nonempty
  have hc := h.digits c List.mem_cons_self
  have hblank : afterBlanks? (' ' :: (c :: r ++ "ms".toList)) = some (c :: r ++ "ms".toList) :=
    afterBlanks?_blank (by rintro _ ⟨⟩; exact Text.isBlank_of_isDigit hc)
  have hfor : after? "for" (c :: r ++ "ms".toList) = none := by
    refine after?_of_head? (c := 'f') rfl rfl ?_
    rintro rfl
    exact absurd hc (by decide)
  have hrun : run? Text.isDigit (c :: r ++ "ms".toList) = some (c :: r, "ms".toList) := by
    refine run?_append h.nonempty h.digits ?_
    rintro _ ⟨⟩
    decide
  have hshape : "Wait ".toList ++ (c :: r ++ "ms".toList) =
      "Wait".toList ++ (' ' :: (c :: r ++ "ms".toList)) := rfl
  rw [hshape, ofText?_wait]
  simp only [waitForEvent?, waitMs?, after?_append, Option.bind_eq_bind, Option.bind_some, hblank,
    hfor, Option.bind_none, Option.none_or, hrun]
  rfl

/-- A name in writing is read up to what cannot belong to it. -/
theorem run?_shotName {n r : List Char} (hn : isShotName n = true)
    (hr : ∀ c ∈ r.head?, isNameChar c = false) : run? isNameChar (n ++ r) = some (n, r) := by
  rw [isShotName, allOf, Bool.and_eq_true, List.all_eq_true] at hn
  exact run?_append (by simpa using hn.1) hn.2 hr

theorem nameAndFlag?_text {n : List Char} (hn : isShotName n = true) (flag : Option Bool) :
    nameAndFlag? (" name:".toList ++ (n ++ flagText flag)) = some (n, flag) := by
  have hblank : afterBlanks? (" name:".toList ++ (n ++ flagText flag)) =
      some ("name:".toList ++ (n ++ flagText flag)) :=
    afterBlanks?_blank (r := "name:".toList ++ (n ++ flagText flag)) (by rintro _ ⟨⟩; rfl)
  have hrun : run? isNameChar (n ++ flagText flag) = some (n, flagText flag) := by
    refine run?_shotName hn ?_
    cases flag with
    | none => rintro _ ⟨⟩
    | some b =>
      rintro _ ⟨⟩
      rfl
  simp only [nameAndFlag?, hblank, after?_append, hrun, Option.bind_eq_bind, Option.bind_some]
  cases flag with
  | none => rfl
  | some b => cases b <;> rfl

/-- White space does not stand in a text without it. -/
theorem suffix_of_gap {p q l v x : List Char} (hp : ∀ c ∈ p, isBlank c = false) (hv : IsGap v)
    (h : p ++ q = l ++ (v ++ x)) : x <:+ q := by
  rw [List.append_eq_append_iff] at h
  obtain ⟨y, -, hq⟩ | ⟨y, rfl, hy⟩ := h
  · exact ⟨y ++ v, by rw [hq, List.append_assoc]⟩
  · cases y with
    | nil => exact ⟨v, hy⟩
    | cons c y =>
      obtain ⟨d, v, rfl⟩ := List.exists_cons_of_ne_nil hv.1
      obtain ⟨rfl, -⟩ := List.cons.inj hy
      have hblank := hv.2 d List.mem_cons_self
      rw [hp d (List.mem_append_right l List.mem_cons_self)] at hblank
      cases hblank

/-- Behind a screenshot's name no other name is stated. -/
theorem labelled_nameAndFlag?_eq_none {n : List Char} (hn : isShotName n = true)
    (flag : Option Bool) :
    labelled nameAndFlag? (" name:".toList ++ (n ++ flagText flag)) = none := by
  rw [isShotName, allOf, Bool.and_eq_true, List.all_eq_true] at hn
  rw [Option.eq_none_iff_forall_ne_some]
  rintro ⟨l, p⟩ h
  obtain ⟨w, r, hw, hr, hs, hcases⟩ := labelled_cases h
  have hshape : [' '] ++ ("name:".toList ++ (n ++ flagText flag)) = w ++ r := hs
  obtain ⟨rfl, rfl⟩ := gap_unique hshape isGap_blank.2 hw.2 (by rintro _ ⟨⟩; rfl) hr
  obtain ⟨rest, he, -, hrest, -⟩ | ⟨-, htwo, -⟩ := hcases
  · simp only [nameAndFlag?, Option.bind_eq_bind, Option.bind_eq_some_iff] at hrest
    obtain ⟨s, hs, t, ht, -⟩ := hrest
    obtain ⟨v, hv, rfl, -⟩ := afterBlanks?_eq_some_iff.mp hs
    rw [after?_eq_some_iff] at ht
    subst ht
    have hplain : ∀ c ∈ "name:".toList ++ n, isBlank c = false := by
      intro c hc
      obtain hc | hc := List.mem_append.mp hc
      · have hword : "name:".toList.any isBlank = false := by decide
        simpa using List.any_eq_false.mp hword c hc
      · exact isBlank_of_isNameChar (hn.2 c hc)
    rw [← List.append_assoc] at he
    have hname : "name:".toList <:+: flagText flag :=
      (List.prefix_append _ t).isInfix.trans (suffix_of_gap hplain hv he).isInfix
    cases flag with
    | none => exact absurd hname (by decide)
    | some b => cases b <;> exact absurd hname (by decide)
  · simp at htwo

theorem screenshotOf?_label {l : Option (List Char)} {n : List Char} {flag : Option Bool}
    (hl : ∀ lb ∈ l, IsLabel lb) (hn : isShotName n = true) :
    screenshotOf? (labelText l ++ (" name:".toList ++ (n ++ flagText flag))) =
      some (screenshot n l flag) := by
  have hname := nameAndFlag?_text hn flag
  rw [screenshotOf?]
  cases l with
  | none =>
    have hshape : labelText none ++ (" name:".toList ++ (n ++ flagText flag)) =
        " name:".toList ++ (n ++ flagText flag) := rfl
    rw [hshape, labelled_nameAndFlag?_eq_none hn, hname]
    rfl
  | some l =>
    have hshape : labelText (some l) ++ (" name:".toList ++ (n ++ flagText flag)) =
        ' ' :: (l ++ (" name:".toList ++ (n ++ flagText flag))) := rfl
    rw [hshape, (hl l rfl).labelled_eq hname passesOver_nameAndFlag?]
    rfl

theorem targetAndInstructions?_text {target : Option (List Char)} {x : List Char}
    (ht : ∀ n ∈ target, isShotName n = true) (hx : IsMessage x) :
    targetAndInstructions? (targetText target ++ (" instructions: ".toList ++ x)) =
      some (target, x) := by
  have hblank : afterBlanks? (" instructions: ".toList ++ x) =
      some ("instructions: ".toList ++ x) :=
    afterBlanks?_blank (r := "instructions: ".toList ++ x) (by rintro _ ⟨⟩; rfl)
  have hword : "instructions: ".toList = "instructions:".toList ++ [' '] := rfl
  have hmessage : messageAfter? "instructions:" ("instructions: ".toList ++ x) = some x := by
    rw [hword, List.append_assoc]
    exact hx.messageAfter? "instructions:"
  have hinstructions : instructions? (" instructions: ".toList ++ x) = some x := by
    rw [instructions?, hblank, Option.bind_eq_bind, Option.bind_some, hmessage]
  rw [targetAndInstructions?]
  cases target with
  | none =>
    have hshape : targetText none ++ (" instructions: ".toList ++ x) =
        " instructions: ".toList ++ x := rfl
    have htarget : after? "target:" ("instructions: ".toList ++ x) = none := rfl
    simp only [hshape, hblank, htarget, hinstructions, Option.bind_eq_bind, Option.bind_some,
      Option.bind_none, Option.none_or, Option.map_some]
  | some n =>
    have hshape : targetText (some n) ++ (" instructions: ".toList ++ x) =
        ' ' :: ("target:".toList ++ (n ++ (" instructions: ".toList ++ x))) := by
      rw [← List.append_assoc "target:".toList]
      rfl
    have hbehind : afterBlanks? (' ' :: ("target:".toList ++
        (n ++ (" instructions: ".toList ++ x)))) =
          some ("target:".toList ++ (n ++ (" instructions: ".toList ++ x))) :=
      afterBlanks?_blank (by rintro _ ⟨⟩; rfl)
    have hrun : run? isNameChar (n ++ (" instructions: ".toList ++ x)) =
        some (n, " instructions: ".toList ++ x) :=
      run?_shotName (ht n rfl) (by rintro _ ⟨⟩; rfl)
    simp only [hshape, hbehind, after?_append, hrun, hinstructions, Option.bind_eq_bind,
      Option.bind_some, Option.some_or]

theorem ofText?_annotate_label {l target : Option (List Char)} {x : List Char}
    (hl : ∀ lb ∈ l, IsLabel lb) (ht : ∀ n ∈ target, isShotName n = true) (hx : IsMessage x) :
    ofText? ("Annotate".toList ++ (labelText l ++ (targetText target ++
      (" instructions: ".toList ++ x)))) = some (annotate l target x) := by
  have hread := targetAndInstructions?_text ht hx
  rw [ofText?_annotate]
  cases l with
  | none =>
    have hshape : labelText none ++ (targetText target ++ (" instructions: ".toList ++ x)) =
        targetText target ++ (" instructions: ".toList ++ x) := rfl
    rw [hshape, hread]
    rfl
  | some l =>
    obtain ⟨rest, hrest⟩ : ∃ rest, targetText target ++ (" instructions: ".toList ++ x) =
        ' ' :: rest := by cases target <;> exact ⟨_, rfl⟩
    have hshape : labelText (some l) ++ (targetText target ++ (" instructions: ".toList ++ x)) =
        ' ' :: (l ++ (' ' :: rest)) := by rw [hrest]; rfl
    rw [hrest] at hread
    rw [hshape, (hl l rfl).form_eq_none passesOver_targetAndInstructions?,
      (hl l rfl).labelled_eq hread passesOver_targetAndInstructions?]
    rfl

end Directive

theorem timeout_stated {t : Option (List Char)} (ht : ∀ ds ∈ t, IsNumber ds) :
    timeout t = .ok (statedTimeout t) := by
  cases t with
  | none => rfl
  | some ds =>
    rw [timeout, (ht ds rfl).number]
    rfl

namespace Documented

variable {t : List Char} {a : Action}

/-- A text in a documented form is read as a directive, which does what the text states. -/
theorem exists_directive (h : Documented t a) :
    ∃ d, Directive.ofText? t = some d ∧ ∀ l, d.action l = .ok a := by
  cases h with
  | narration hw hx => exact ⟨_, Directive.ofText?_narration_message hw hx, fun l => rfl⟩
  | goto hn hr => exact ⟨_, Directive.ofText?_goto_key hn hr, fun l => rfl⟩
  | click hl ha => exact ⟨_, Directive.ofText?_click_label hl ha, fun l => rfl⟩
  | fillValue hl ha hv =>
    exact ⟨_, Directive.ofText?_fill_label hl ha (by rintro _ ⟨⟩; rfl)
      (Directive.fillSource?_value hv), fun l => rfl⟩
  | fillVariable hl ha hn =>
    exact ⟨_, Directive.ofText?_fill_label hl ha (by rintro _ ⟨⟩; rfl)
      (Directive.fillSource?_variable hn), fun l => rfl⟩
  | waitForEvent hl he ht =>
    refine ⟨_, Directive.ofText?_waitFor_label hl he ht, fun l => ?_⟩
    rw [Directive.action, timeout_stated ht]
    rfl
  | expectVisible hw hv hl ha ht =>
    refine ⟨_, Directive.ofText?_expectVisible_label hw hv hl ha ht, fun l => ?_⟩
    rw [Directive.action, timeout_stated ht]
    rfl
  | @waitMs ds hd hpos =>
    refine ⟨_, Directive.ofText?_waitMs hd.toIsDigits, fun l => ?_⟩
    obtain ⟨n, hn⟩ := Nat.exists_eq_succ_of_ne_zero hpos.ne'
    rw [Directive.action, hd.number, ok_bind, hn]
    rfl
  | @screenshot word l n flag hw hl hn =>
    refine ⟨.screenshot n l flag, ?_, fun l => rfl⟩
    obtain rfl | rfl := hw
    · rw [Directive.ofText?_screenshot, Directive.screenshotOf?_label hl hn]
    · rw [Directive.ofText?_snapshot, Directive.screenshotOf?_label hl hn]
  | annotate hl ht hx => exact ⟨_, Directive.ofText?_annotate_label hl ht hx, fun l => rfl⟩

theorem unblank (h : Documented t a) : Unblank t := by
  cases h with
  | narration hw hx => obtain rfl | rfl := hw <;> (rintro _ ⟨⟩; rfl)
  | @expectVisible w v l an t hw hv hl ha ht =>
    have hword := hw ▸ Directive.afterAnyCase?_toLower w
    exact Directive.unblank_of_afterAnyCase? (by rfl) hword _
  | screenshot hw hl hn => obtain rfl | rfl := hw <;> (rintro _ ⟨⟩; rfl)
  | _ => rintro _ ⟨⟩; rfl

theorem ends (h : Documented t a) : Ends t := by
  have hbrackets (n : List Char) : Ends (inBrackets n) :=
    ((Ends.of_getLast? (s := ")".toList) rfl rfl).append n).append " (".toList
  have htimeout (n : List Char) {t : Option (List Char)} (ht : ∀ ds ∈ t, IsNumber ds) :
      Ends (inBrackets n ++ timeoutText t) := by
    cases t with
    | none =>
      have hnone : timeoutText none = [] := rfl
      rw [hnone, List.append_nil]
      exact hbrackets n
    | some ds => exact ((ht ds rfl).ends.append " timeout:".toList).append (inBrackets n)
  have hname {n : List Char} (hn : isShotName n = true) : Ends n := by
    rw [isShotName, allOf, Bool.and_eq_true, List.all_eq_true] at hn
    exact .of_forall (by simpa using hn.1) fun c hc => isBlank_of_isNameChar (hn.2 c hc)
  cases h with
  | narration hw hx => exact hx.toEnds.append _
  | goto hn hr => exact (Ends.of_forall hn hr).append _
  | click hl ha => exact ((hbrackets _).append _).append _
  | fillValue hl ha hv => exact (((hv.toEnds.append _).append _).append _).append _
  | @fillVariable l an n hl ha hn =>
    have hvariable : Ends n := by
      refine .of_forall ?_ fun c hc => isBlank_of_isNameChar (isNameChar_of_isVariable hn hc)
      rintro rfl
      cases hn
    exact (((hvariable.append _).append _).append _).append _
  | waitForEvent hl he ht => exact ((htimeout _ ht).append _).append _
  | @expectVisible w v l an t hw hv hl ha ht =>
    exact (((((htimeout an ht).append l).append [' ']).append v).append [' ']).append w
  | waitMs hd hpos =>
    exact ((Ends.of_getLast? (s := "ms".toList) rfl rfl).append _).append _
  | @screenshot word l n flag hw hl hn =>
    have hflag : Ends (n ++ flagText flag) := by
      cases flag with
      | none =>
        have hnone : flagText none = [] := rfl
        rw [hnone, List.append_nil]
        exact hname hn
      | some b =>
        have hword : Ends (if b then "true" else "false").toList := by
          cases b <;> exact .of_getLast? rfl rfl
        exact (hword.append " fullPage:".toList).append n
    exact ((hflag.append _).append _).append _
  | annotate hl ht hx => exact (((hx.toEnds.append _).append _).append _).append _

end Documented

/-- A line in a documented form is read into what it states, part by part, and nothing else. -/
theorem parseLine_documented {t : List Char} {a : Action} (h : Documented t a)
    (hb : ¬divider <:+: t) (source : String) (number : Int) :
    parseLine ⟨source, number, str t⟩ = .ok ⟨a, {}⟩ := by
  obtain ⟨d, hd, ha⟩ := h.exists_directive
  have ht : Text.trim t = t := Text.trim_eq_self_iff.mpr ⟨h.unblank, h.ends.unblank⟩
  exact parseLine_of_ofText? rfl hb ht hd (ha ⟨source, number, str t⟩)

/-- A label and instructions that look like other parts of a marking, and an expectation in letters
of both cases. -/
theorem parseLine_documented_annotate :
    parseLine ⟨"g", 1, "Annotate target instructions target:home.2 instructions: a target:b (c)"⟩ =
      .ok ⟨.annotate "target instructions" "a target:b (c)" (some "home.2"), {}⟩ ∧
    parseLine ⟨"g", 2, "eXPECT Visible visible) x (tour.a-b.c) timeout:007"⟩ =
      .ok ⟨.expectVisible "visible) x" "tour.a-b.c" 7, {}⟩ := by
  have hl : IsLabel "target instructions".toList :=
    ⟨by decide, by decide, by decide, by decide, by decide⟩
  have hx : IsMessage "a target:b (c)".toList :=
    ⟨⟨.of_getLast? rfl rfl, by decide⟩, by rintro _ ⟨⟩; rfl⟩
  have hmarking := Documented.annotate (l := some "target instructions".toList)
    (t := some "home.2".toList) (by rintro _ ⟨⟩; exact hl) (by rintro _ ⟨⟩; decide) hx
  have hv : IsLabel "visible) x".toList :=
    ⟨by decide, by decide, by decide, by decide, by decide⟩
  have hn : IsNumber "007".toList := ⟨⟨by decide, List.all_eq_true.mp (by decide)⟩, by decide⟩
  have hexpectation := Documented.expectVisible (w := "eXPECT".toList) (v := "Visible".toList)
    (a := "tour.a-b.c".toList) (t := some "007".toList) (by rfl) (by rfl) hv (by rfl)
    (by rintro _ ⟨⟩; exact hn)
  exact ⟨parseLine_documented hmarking (by decide +kernel) "g" 1,
    parseLine_documented hexpectation (by decide +kernel) "g" 2⟩

end Guide

end Walkthrough
