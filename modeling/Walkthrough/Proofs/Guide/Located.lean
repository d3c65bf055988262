import Walkthrough.Proofs.Guide.Documented
import Walkthrough.Proofs.Guide.Position
/-!
Faults of guides that name a line. Where every fragment that is there can be read, a guide is read
or refused at a line unless the first thing wrong with it is a fragment's name that no file can
have, or a number with more digits than a number may have.
-/

namespace Walkthrough.Guide

/-- A fault that names a line: its text, its number and the source that it stands in. -/
def IsLocated (f : Fault) : Prop := ∃ l reason, f = .refusal (Line.refuse l reason)

/-- Every fragment that is there can be read. -/
def Readable (st : Store) (directory : Option Path) : Prop :=
  ∀ dir name file, directory = some dir → file ∈ fragmentPaths dir name →
    st.hasFile file = .ok true → ∃ text, readText st file = .ok text

/-- A line includes a fragment under a name that no file can have. -/
def NameTooLong (st : Store) (directory : Option Path) (l : Line) : Prop :=
  ∃ dir name before file after, directory = some dir ∧ included? l = some name ∧
    fragmentPaths dir (str name) = before ++ file :: after ∧
    (∀ p ∈ before, st.hasFile p = .ok false) ∧ st.find file = .error .nameTooLong

/-- The digits of the number that a directive states. -/
def Directive.digits? : Directive → Option (List Char)
  | waitForEvent _ _ t => t
  | expectVisible _ _ t => t
  | waitMs ds => some ds
  | _ => none

/-- A line states a number with more digits than a number may have, and nothing that is read before
it is wrong: the modifiers in their order, and the directive behind them. -/
inductive NumberTooLong (l : Line) : Prop
  | preDelay {base c ds : List Char} {before after : List (List Char)} {x : Extras}
    (hc : clauses l.text.toList = base :: (before ++ c :: after))
    (hx : modifiers l [] {} before = .ok x) (hnew : Modifier.key c ∉ before.map Modifier.key)
    (hm : Modifier.ofText? c = some (.preDelay ds)) (hn : Json.digitLimit < ds.length)
  | directive {base ds : List Char} {rest : List (List Char)} {d : Directive} {x : Extras}
    (hc : clauses l.text.toList = base :: rest) (hx : modifiers l [] {} rest = .ok x)
    (hd : Directive.ofText? base = some d) (hds : d.digits? = some ds)
    (hn : Json.digitLimit < ds.length)

theorem number_eq_error_iff {ds : List Char} {f : Fault} :
    number ds = .error f ↔ Json.digitLimit < ds.length ∧ f = .number (.tooLong ds.length) := by
  unfold number
  split_ifs with hn
  · simp [hn, eq_comm]
  · simp [hn]

/-- The modifiers of a line are read one after the other. -/
theorem modifiers_append (l : Line) (seen : List (List Char)) (x : Extras)
    (cs cs' : List (List Char)) : modifiers l seen x (cs ++ cs') =
      (modifiers l seen x cs >>= fun y =>
        modifiers l ((cs.map Modifier.key).reverse ++ seen) y cs') := by
  induction cs generalizing seen x with
  | nil => rfl
  | cons c cs ih =>
    rw [List.cons_append, modifiers, modifiers]
    split_ifs
    · rfl
    · cases Modifier.ofText? c with
      | none => rfl
      | some m =>
        dsimp only
        cases m.apply x with
        | error e => rfl
        | ok y =>
          rw [ok_bind, ok_bind, ih]
          simp

/-- Modifiers fail for a number if one of them states one that is too long, and those before it are
right. -/
theorem modifiers_eq_number_iff {l : Line} {seen cs : List (List Char)} {x : Extras}
    {f : NumberFault} : modifiers l seen x cs = .error (.number f) ↔
      ∃ before c after ds y, cs = before ++ c :: after ∧ modifiers l seen x before = .ok y ∧
        Modifier.key c ∉ (before.map Modifier.key).reverse ++ seen ∧
        Modifier.ofText? c = some (.preDelay ds) ∧ number ds = .error (.number f) := by
  constructor
  · intro h
    induction cs generalizing seen x with
    | nil => cases h
    | cons c cs ih =>
      rw [modifiers] at h
      split_ifs at h with hseen
      · cases h
      · split at h
        · cases h
        · next m hm =>
          obtain h | ⟨y, hy, h⟩ := bind_eq_error.mp h
          · cases m with
            | preDelay ds =>
              obtain h | ⟨n, -, ⟨⟩⟩ := bind_eq_error.mp h
              exact ⟨[], c, cs, ds, x, rfl, rfl, by simpa using hseen, hm, h⟩
            | _ => cases h
          · obtain ⟨before, c', after, ds, z, rfl, hz, hnew, hm', hn⟩ := ih h
            refine ⟨c :: before, c', after, ds, z, rfl, ?_, by simpa using hnew, hm', hn⟩
            rw [modifiers, if_neg hseen, hm]
            dsimp only
            rw [hy, ok_bind, hz]
  · rintro ⟨before, c, after, ds, y, rfl, hy, hnew, hm, hn⟩
    rw [modifiers_append, hy, ok_bind, modifiers, if_neg (by simpa using hnew), hm]
    dsimp only
    rw [Modifier.apply, hn]
    rfl

theorem Directive.action_eq_number_iff {d : Directive} {l : Line} {f : NumberFault} :
    d.action l = .error (.number f) ↔
      ∃ ds, d.digits? = some ds ∧ number ds = .error (.number f) := by
  have htimeout {t : Option (List Char)} {make : Int → Action} :
      (timeout t >>= fun n => .ok (make n)) = .error (.number f) ↔
        ∃ ds, t = some ds ∧ number ds = .error (.number f) := by
    cases t with
    | none => simp [timeout, ok_bind]
    | some ds =>
      rw [timeout]
      rcases hn : number ds with e | n <;> simp [hn, Except.map, bind, Except.bind]
  cases d with
  | waitForEvent lb e t => exact htimeout
  | expectVisible lb an t => exact htimeout
  | waitMs ds =>
    rw [action, bind_eq_error]
    constructor
    · rintro (h | ⟨n, -, h⟩)
      · exact ⟨ds, rfl, h⟩
      · cases n <;> cases h
    · rintro ⟨_, ⟨⟩, h⟩
      exact .inl h
  | fill lb an source => cases source <;> simp [action, digits?]
  | _ => simp [action, digits?]

/-- A line is not refused but fails exactly for a number that is too long. -/
theorem numberTooLong_iff {l : Line} :
    NumberTooLong l ↔ ∃ f, parseLine l = .error (.number f) := by
  obtain ⟨base, rest, hc⟩ := List.exists_cons_of_ne_nil (clauses_ne_nil l.text.toList)
  constructor
  · intro h
    cases h with
    | @preDelay base' c ds before after x hc' hx hnew hm hn =>
      obtain ⟨rfl, rfl⟩ := List.cons.inj (hc.symm.trans hc')
      refine ⟨.tooLong ds.length, ?_⟩
      have hwrong : modifiers l [] {} (before ++ c :: after) =
          .error (.number (.tooLong ds.length)) :=
        modifiers_eq_number_iff.mpr ⟨before, c, after, ds, x, rfl, hx, by simpa using hnew, hm,
          number_eq_error_iff.mpr ⟨hn, rfl⟩⟩
      simp only [parseLine, hc, hwrong]
      rfl
    | @directive base' ds rest' d x hc' hx hd hds hn =>
      obtain ⟨rfl, rfl⟩ := List.cons.inj (hc.symm.trans hc')
      refine ⟨.tooLong ds.length, ?_⟩
      have hwrong : d.action l = .error (.number (.tooLong ds.length)) :=
        Directive.action_eq_number_iff.mpr ⟨ds, hds, number_eq_error_iff.mpr ⟨hn, rfl⟩⟩
      simp only [parseLine, hc, hx, ok_bind, hd, hwrong]
      rfl
  · rintro ⟨f, h⟩
    simp only [parseLine, hc] at h
    obtain h | ⟨x, hx, h⟩ := bind_eq_error.mp h
    · obtain ⟨before, c, after, ds, y, rfl, hy, hnew, hm, hn⟩ := modifiers_eq_number_iff.mp h
      exact .preDelay hc hy (by simpa using hnew) hm (number_eq_error_iff.mp hn).1
    · split at h
      · next d hd =>
        obtain h | ⟨a, -, ⟨⟩⟩ := bind_eq_error.mp h
        obtain ⟨ds, hds, hn⟩ := Directive.action_eq_number_iff.mp h
        exact .directive hc hx hd hds (number_eq_error_iff.mp hn).1
      · cases h

section

variable {st : Store} {directory : Option Path}

/-- A file that a search finds is one of those searched for, and is there. -/
theorem hasFile_of_firstFile? {ps : List Path} {file : Path}
    (h : firstFile? st ps = .ok (some file)) : file ∈ ps ∧ st.hasFile file = .ok true := by
  induction ps with
  | nil => cases h
  | cons p ps ih =>
    rw [firstFile?_cons] at h
    obtain ⟨found, hp, h⟩ := bind_eq_ok.mp h
    cases found with
    | true =>
      cases h
      exact ⟨List.mem_cons_self, mapError_eq_ok.mp hp⟩
    | false => exact (ih h).imp_left (List.mem_cons_of_mem p)

/-- Fragments can be read where all files are UTF-8. -/
theorem readable_of_utf8
    (h : ∀ loc bytes, st.at? loc = some (.file bytes) → ∃ s, Text.Utf8.decode bytes = .ok s) :
    Readable st directory := by
  intro dir name file _ _ hthere
  rw [Store.hasFile, Store.lookup?] at hthere
  rcases hfind : st.find file with cause | ⟨loc, entry⟩
  · rw [hfind] at hthere
    cases cause <;> cases hthere
  · rw [hfind] at hthere
    cases entry with
    | directory => cases hthere
    | file bytes =>
      have hentry : st.at? loc = some (.file bytes) := by
        obtain ⟨loc', -, hat⟩ := bind_eq_ok.mp hfind
        split at hat
        · next e he =>
          cases hat
          exact he
        · cases hat
      obtain ⟨s, hs⟩ := h loc bytes hentry
      refine ⟨String.ofList (Text.unifyLineEnds s), ?_⟩
      simp only [readText, Store.read, hfind, hs, Except.mapError, bind, Except.bind]

/-- What is included under a name that no file can have fails, and not for the line. -/
theorem expandLine_of_nameTooLong {l : Line} (h : NameTooLong st directory l) :
    ∃ f, expandLine st directory l = .error (.file f) := by
  obtain ⟨dir, name, before, file, after, rfl, hi, hpaths, hbefore, hfind⟩ := h
  have hsearch : firstFile? st (fragmentPaths dir (str name)) =
      .error (.file ⟨.nameTooLong, file⟩) :=
    firstFile?_eq_error_iff.mpr ⟨before, file, after, hpaths, hbefore, hfind, rfl⟩
  refine ⟨⟨.nameTooLong, file⟩, ?_⟩
  simp only [expandLine, hi, loadFragment, hsearch]
  rfl

/-- Where the fragments can be read, an include that fails is refused at a line unless its name is
too long. -/
theorem IncludeFails.isLocated {l : Line} {f : Fault} (hr : Readable st directory)
    (h : IncludeFails st directory l f) : IsLocated f ∨ NameTooLong st directory l := by
  cases h with
  | noFragments hi hd => exact .inl ⟨_, _, rfl⟩
  | unsearchable hi hd hf =>
    obtain ⟨before, file, after, hpaths, hbefore, hfind, -⟩ := firstFile?_eq_error_iff.mp hf
    exact .inr ⟨_, _, before, file, after, hd, hi, hpaths, hbefore, hfind⟩
  | unknown hi hd hf => exact .inl ⟨_, _, rfl⟩
  | unreadable hi hd hf hread =>
    obtain ⟨hmem, hthere⟩ := hasFile_of_firstFile? hf
    obtain ⟨text, htext⟩ := hr _ _ _ hd hmem hthere
    rw [hread] at htext
    cases htext
  | nested hi hf => exact .inl ⟨_, _, rfl⟩

/-- Where every fragment that is there can be read, each guide is read or refused at a line, unless
the first include that fails has a name that no file can have, or the first line that fails states a
number that is too long. -/
theorem parse_located_iff (hr : Readable st directory) (source text : String) :
    (∀ f, parse st directory source text = .error f → IsLocated f) ↔
      (¬∃ before l after ms, readLines text source = before ++ l :: after ∧
        expand st directory before = .ok ms ∧ NameTooLong st directory l) ∧
      ¬∃ before l after steps,
        expand st directory (readLines text source) = .ok (before ++ l :: after) ∧
        before.mapM parseLine = .ok steps ∧ NumberTooLong l := by
  constructor
  · intro h
    constructor
    · rintro ⟨before, l, after, ms, hls, hbefore, hl⟩
      obtain ⟨f, hf⟩ := expandLine_of_nameTooLong hl
      obtain ⟨_, _, ⟨⟩⟩ :=
        h _ (parse_eq_error_iff.mpr (.inl ⟨before, l, after, ms, hls, hbefore, hf⟩))
    · rintro ⟨before, l, after, steps, hls, hbefore, hl⟩
      obtain ⟨f, hf⟩ := numberTooLong_iff.mp hl
      obtain ⟨_, _, ⟨⟩⟩ :=
        h _ (parse_eq_error_iff.mpr (.inr ⟨before, l, after, steps, hls, hbefore, hf⟩))
  · rintro ⟨hname, hnumber⟩ f h
    obtain ⟨before, l, after, ms, hls, hbefore, hl⟩ | ⟨before, l, after, steps, hls, hbefore, hl⟩ :=
      parse_eq_error_iff.mp h
    · refine ((includeFails_of_expandLine hl).isLocated hr).resolve_right fun hlong => ?_
      exact hname ⟨before, l, after, ms, hls, hbefore, hlong⟩
    · cases LineFails.of_parseLine hl with
      | refused => exact ⟨_, _, rfl⟩
      | tooLong hn =>
        exact absurd ⟨before, l, after, steps, hls, hbefore, numberTooLong_iff.mpr ⟨_, hl⟩⟩ hnumber

end

/-- A text that is one line is read as one. -/
theorem readLines_of_unbroken {t : List Char} (source : String)
    (hb : ∀ c ∈ t, Text.isBreak c = false) (ht : Text.trim t = t) (hs : isSilent t = false) :
    readLines (str t) source = [⟨source, 1, str t⟩] := by
  have hn : t ≠ [] := by
    rintro rfl
    cases hs
  rw [readLines, numbered, str, String.toList_ofList, Text.lines_of_unbroken hn hb]
  simp [ht, hs]

/-- A guide of one wait, whose number is too long, has nothing wrong but the number. -/
theorem numberTooLong_wait {ds : List Char} (h : IsDigits ds) (hn : Json.digitLimit < ds.length)
    (st : Store) (directory : Option Path) (source : String) :
    let text := str ("Wait ".toList ++ (ds ++ "ms".toList))
    ∃ before l after steps, expand st directory (readLines text source) =
      .ok (before ++ l :: after) ∧ before.mapM parseLine = .ok steps ∧ NumberTooLong l := by
  intro text
  let t := "Wait ".toList ++ (ds ++ "ms".toList)
  have hmem {c : Char} (hc : c ∈ t) : c ∈ "Wait ".toList ∨ c ∈ ds ∨ c ∈ "ms".toList :=
    (List.mem_append.mp hc).imp_right List.mem_append.mp
  have hbreak : ∀ c ∈ t, Text.isBreak c = false := by
    intro c hc
    have hlead : "Wait ".toList.any Text.isBreak = false := by decide
    have hunit : "ms".toList.any Text.isBreak = false := by decide
    obtain hc | hc | hc := hmem hc
    · simpa using List.any_eq_false.mp hlead c hc
    · exact Text.isBreak_of_not_isBlank (Text.isBlank_of_isDigit (h.digits c hc))
    · simpa using List.any_eq_false.mp hunit c hc
  have hbar : '|' ∉ t := by
    intro hc
    obtain hc | hc | hc := hmem hc
    · exact absurd hc (by decide)
    · exact absurd (h.digits _ hc) (by decide)
    · exact absurd hc (by decide)
  have hends : Ends t :=
    ((Ends.of_getLast? (s := "ms".toList) rfl rfl).append ds).append "Wait ".toList
  have htrim : Text.trim t = t :=
    Text.trim_eq_self_iff.mpr ⟨by rintro _ ⟨⟩; rfl, hends.unblank⟩
  let l : Line := ⟨source, 1, text⟩
  have htext : l.text.toList = t := String.toList_ofList
  have hplain : included? l = none := by
    rw [included?, htext, Directive.includeFragment?,
      after?_of_head? (c := 'I') (d := 'W') rfl rfl (by decide)]
    rfl
  have hclauses : clauses l.text.toList = [t] := by
    rw [htext, clauses_of_no_divider fun hd => hbar (hd.subset (by simp [divider])), htrim]
  refine ⟨[], l, [], [], ?_, rfl, .directive hclauses rfl (Directive.ofText?_waitMs h) rfl hn⟩
  rw [readLines_of_unbroken source hbreak htrim rfl]
  exact expand_of_plain fun m hm => by rwa [List.mem_singleton.mp hm]

/-- A wait whose number has one digit too many. -/
theorem parse_located_iff_wait :
    let st : Store := ⟨[(["fragments"], .directory),
      (["fragments", "hello.md"], .file (Text.Utf8.encode "Say: Hello".toList))]⟩
    let text := str ("Wait ".toList ++ (List.replicate 4301 '9' ++ "ms".toList))
    Readable st (some "fragments") ∧
      ∃ f, parse st (some "fragments") "guide" text = .error f ∧ ¬IsLocated f := by
  intro st text
  have hr : Readable st (some "fragments") := by
    refine readable_of_utf8 fun loc bytes h => ⟨"Say: Hello".toList, ?_⟩
    have hbytes : Text.Utf8.encode "Say: Hello".toList = bytes := by
      simp only [Store.at?, st, List.lookup_cons, List.lookup_nil] at h
      split at h
      · cases h
      · split at h
        · cases h
        · split at h <;> cases h
          rfl
    rw [← hbytes, Text.Utf8.decode_encode]
  have hdigits : IsDigits (List.replicate 4301 '9') := by
    refine ⟨by rw [ne_eq, List.replicate_eq_nil_iff]; decide, fun c hc => ?_⟩
    rw [List.eq_of_mem_replicate hc]
    decide
  have hlong : Json.digitLimit < (List.replicate 4301 '9').length := by
    rw [List.length_replicate]
    decide
  refine ⟨hr, ?_⟩
  by_contra hlocated
  push Not at hlocated
  exact ((parse_located_iff hr "guide" text).mp hlocated).2 (numberTooLong_wait hdigits hlong _ _ _)

end Walkthrough.Guide
