import Walkthrough.Proofs.Guide.Fragment
import Walkthrough.Proofs.Guide.Modified
/-!
Where a guide is refused. A refusal is about a line that stands in the guide or in a fragment it
includes, under the number that the line has there, and nothing is wrong with what comes before it:
neither with the includes nor, once all of them are resolved, with the lines in their order.
-/

namespace Walkthrough.Guide

/-- A refusal is about a line of a text that says something, and shows the line as it stands
there. -/
structure Refusal.At (r : Refusal) (source text : String) : Prop where
  source : r.source = source
  line : ∃ (n : Nat) (s : String), r.line = some ((n : Int) + 1, s) ∧
    text.brokenLines[n]?.map String.trimBlank = some s ∧ s ≠ "" ∧ s.toList.head? ≠ some '#'

/-- A reason that is about what a line includes. -/
def Reason.isInclude : Reason → Bool
  | nestedFragment | noFragments _ | unknownFragment .. => true
  | _ => false

theorem at_of_mem_readLines {text source : String} {l : Line} (h : l ∈ readLines text source)
    (reason : Reason) : (l.refuse reason).At source text := by
  simp only [readLines, numbered, List.mem_map, List.mem_filter, Prod.exists,
    List.mem_zipIdx_iff_getElem?, Prod.mk.injEq] at h
  obtain ⟨_, _, ⟨⟨s, n, hs, rfl, rfl⟩, hsays⟩, rfl⟩ := h
  refine ⟨rfl, n, String.ofList (Text.trim s), rfl, ?_, ?_, ?_⟩
  · simp [String.brokenLines, hs, String.trimBlank]
  · intro he
    rw [← String.ofList_nil, String.ofList_inj] at he
    rw [he] at hsays
    cases hsays
  · rw [String.toList_ofList]
    intro hhead
    obtain ⟨r, hr⟩ := List.head?_eq_some_iff.mp hhead
    rw [hr] at hsays
    cases hsays

section

variable {st : Store} {directory : Option Path}

/-- A line includes a file, which holds a text. -/
def Includes (st : Store) (directory : Option Path) (l : Line) (file : Path) (text : String) :
    Prop :=
  ∃ dir name, directory = some dir ∧ included? l = some name ∧
    firstFile? st (fragmentPaths dir (str name)) = .ok (some file) ∧ readText st file = .ok text

/-- Everything that can go wrong with what a line includes. -/
inductive IncludeFails (st : Store) (directory : Option Path) (l : Line) : Fault → Prop
  | noFragments {name : List Char} (hi : included? l = some name) (hd : directory = none) :
    IncludeFails st directory l (.refusal (l.refuse (.noFragments (str name))))
  | unsearchable {dir : Path} {name : List Char} {f : Fault} (hi : included? l = some name)
    (hd : directory = some dir) (hf : firstFile? st (fragmentPaths dir (str name)) = .error f) :
    IncludeFails st directory l f
  | unknown {dir : Path} {name : List Char} (hi : included? l = some name)
    (hd : directory = some dir) (hf : firstFile? st (fragmentPaths dir (str name)) = .ok none) :
    IncludeFails st directory l (.refusal (l.refuse (.unknownFragment (str name) dir)))
  | unreadable {dir file : Path} {name : List Char} {f : Fault} (hi : included? l = some name)
    (hd : directory = some dir)
    (hf : firstFile? st (fragmentPaths dir (str name)) = .ok (some file))
    (hr : readText st file = .error f) : IncludeFails st directory l f
  | nested {file : Path} {text : String} {m : Line} (hi : Includes st directory l file text)
    (hf : (readLines text file.text).find? (fun f => (included? f).isSome) = some m) :
    IncludeFails st directory l (.refusal (m.refuse .nestedFragment))

theorem hasFile_eq_error_iff {file : Path} {f : FileFault} :
    st.hasFile file = .error f ↔ st.find file = .error .nameTooLong ∧ f = ⟨.nameTooLong, file⟩ := by
  rw [Store.hasFile, Store.lookup?]
  rcases st.find file with cause | ⟨loc, entry⟩
  · cases cause <;> simp [Except.map, eq_comm]
  · simp [Except.map]

theorem firstFile?_cons (p : Path) (ps : List Path) :
    firstFile? st (p :: ps) = ((st.hasFile p).mapError .file >>= fun found =>
      if found then .ok (some p) else firstFile? st ps) := by
  rw [firstFile?]
  rcases st.hasFile p with f | found
  · rfl
  · cases found <;> rfl

/-- A search for files ends in a fault at the first path that no file can have. -/
theorem firstFile?_eq_error_iff {ps : List Path} {f : Fault} :
    firstFile? st ps = .error f ↔ ∃ before file after, ps = before ++ file :: after ∧
      (∀ p ∈ before, st.hasFile p = .ok false) ∧ st.find file = .error .nameTooLong ∧
      f = .file ⟨.nameTooLong, file⟩ := by
  constructor
  · intro h
    induction ps with
    | nil => cases h
    | cons p ps ih =>
      rw [firstFile?_cons] at h
      obtain h | ⟨found, hp, h⟩ := bind_eq_error.mp h
      · obtain ⟨g, hg, rfl⟩ := mapError_eq_error.mp h
        obtain ⟨hfind, rfl⟩ := hasFile_eq_error_iff.mp hg
        exact ⟨[], p, ps, rfl, by simp, hfind, rfl⟩
      · cases found with
        | true => cases h
        | false =>
          obtain ⟨before, file, after, rfl, hbefore, hfile⟩ := ih h
          exact ⟨p :: before, file, after, rfl,
            List.forall_mem_cons.mpr ⟨mapError_eq_ok.mp hp, hbefore⟩, hfile⟩
  · rintro ⟨before, file, after, rfl, hbefore, hfind, rfl⟩
    induction before with
    | nil => rw [List.nil_append, firstFile?_cons, hasFile_eq_error_iff.mpr ⟨hfind, rfl⟩]; rfl
    | cons p before ih =>
      obtain ⟨hp, hbefore⟩ := List.forall_mem_cons.mp hbefore
      rw [List.cons_append, firstFile?_cons, hp]
      exact ih hbefore

theorem readText_ne_refusal {file : Path} {r : Refusal} :
    readText st file ≠ .error (.refusal r) := by
  intro h
  obtain h | ⟨bytes, -, h⟩ := bind_eq_error.mp h
  · obtain ⟨f, -, ⟨⟩⟩ := mapError_eq_error.mp h
  · obtain h | ⟨s, -, ⟨⟩⟩ := bind_eq_error.mp h
    obtain ⟨f, -, ⟨⟩⟩ := mapError_eq_error.mp h

/-- A refusal of what a line includes is about the line, or about a line of the file. -/
theorem IncludeFails.refusal_at {source text : String} {l : Line} {r : Refusal}
    (h : IncludeFails st directory l (.refusal r)) (hl : l ∈ readLines text source) :
    r.reason.isInclude = true ∧ (r.At source text ∨
      ∃ file t, Includes st directory l file t ∧ r.At file.text t) := by
  cases h with
  | noFragments hi hd => exact ⟨rfl, .inl (at_of_mem_readLines hl _)⟩
  | unsearchable hi hd hf => obtain ⟨_, _, _, -, -, -, ⟨⟩⟩ := firstFile?_eq_error_iff.mp hf
  | unknown hi hd hf => exact ⟨rfl, .inl (at_of_mem_readLines hl _)⟩
  | unreadable hi hd hf hr => exact absurd hr readText_ne_refusal
  | nested hi hf =>
    exact ⟨rfl, .inr ⟨_, _, hi, at_of_mem_readLines (List.mem_of_find?_eq_some hf) _⟩⟩

/-- What becomes of a line: it stays, it is replaced by the lines of a fragment without includes, or
what it includes fails. -/
theorem expandLine_cases (st : Store) (directory : Option Path) (l : Line) :
    included? l = none ∧ expandLine st directory l = .ok [l] ∨
      (∃ file text, Includes st directory l file text ∧
        (∀ m ∈ readLines text file.text, included? m = none) ∧
        expandLine st directory l = .ok (readLines text file.text)) ∨
      ∃ f, IncludeFails st directory l f ∧ expandLine st directory l = .error f := by
  rcases hi : included? l with - | name
  · exact .inl ⟨rfl, by simp only [expandLine, hi]⟩
  rcases directory with - | dir
  · exact .inr (.inr ⟨_, .noFragments hi rfl, by simp only [expandLine, hi]; rfl⟩)
  rcases hf : firstFile? st (fragmentPaths dir (str name)) with f | - | file
  · refine .inr (.inr ⟨f, .unsearchable hi rfl hf, ?_⟩)
    simp only [expandLine, hi, loadFragment, hf]
    rfl
  · refine .inr (.inr ⟨_, .unknown hi rfl hf, ?_⟩)
    simp only [expandLine, hi, loadFragment, hf, ok_bind]
    rfl
  rcases hr : readText st file with f | text
  · refine .inr (.inr ⟨f, .unreadable hi rfl hf hr, ?_⟩)
    simp only [expandLine, hi, loadFragment, hf, hr, ok_bind]
    rfl
  have hincludes : Includes st (some dir) l file text := ⟨dir, name, rfl, hi, hf, hr⟩
  have hload : loadFragment st (some dir) l (str name) = .ok (readLines text file.text) := by
    simp only [loadFragment, hf, hr, ok_bind]
    rfl
  rcases hn : (readLines text file.text).find? (fun f => (included? f).isSome) with - | m
  · refine .inr (.inl ⟨file, text, hincludes, fun m hm => ?_, ?_⟩)
    · simpa using List.find?_eq_none.mp hn m hm
    · simp only [expandLine, hi, hload, ok_bind, hn]
  · refine .inr (.inr ⟨_, .nested hincludes hn, ?_⟩)
    simp only [expandLine, hi, hload, ok_bind, hn]

theorem includeFails_of_expandLine {l : Line} {f : Fault}
    (h : expandLine st directory l = .error f) : IncludeFails st directory l f := by
  obtain ⟨-, hok⟩ | ⟨file, t, -, -, hok⟩ | ⟨g, hg, herror⟩ := expandLine_cases st directory l
  · rw [h] at hok
    cases hok
  · rw [h] at hok
    cases hok
  · rw [h] at herror
    cases herror
    exact hg

/-- A guide's lines are resolved one by one. -/
theorem expand_eq_ok_iff {ls ms : List Line} : expand st directory ls = .ok ms ↔
    ∃ parts : List (List Line), ls.map (expandLine st directory) = parts.map .ok ∧
      ms = parts.flatten := by
  induction ls generalizing ms with
  | nil =>
    constructor
    · rintro ⟨⟩
      exact ⟨[], rfl, rfl⟩
    · rintro ⟨parts, hparts, rfl⟩
      obtain rfl := List.map_eq_nil_iff.mp hparts.symm
      rfl
  | cons l ls ih =>
    rw [expand_cons]
    constructor
    · intro h
      obtain ⟨part, hpart, h⟩ := bind_eq_ok.mp h
      obtain ⟨back, hback, h⟩ := bind_eq_ok.mp h
      cases h
      obtain ⟨parts, hparts, rfl⟩ := ih.mp hback
      exact ⟨part :: parts, by rw [List.map_cons, hpart, hparts, List.map_cons], rfl⟩
    · rintro ⟨parts, hparts, rfl⟩
      cases parts with
      | nil => cases hparts
      | cons part parts =>
        obtain ⟨hpart, hparts⟩ := List.cons.inj hparts
        rw [hpart, ok_bind, ih.mpr ⟨parts, hparts, rfl⟩]
        rfl

/-- Where the lines of a guide cannot be resolved, the first include that fails says why. -/
theorem expand_eq_error_iff {ls : List Line} {e : Fault} : expand st directory ls = .error e ↔
    ∃ before l after ms, ls = before ++ l :: after ∧ expand st directory before = .ok ms ∧
      expandLine st directory l = .error e := by
  constructor
  · intro h
    induction ls with
    | nil => cases h
    | cons l ls ih =>
      rw [expand_cons] at h
      obtain h | ⟨part, hpart, h⟩ := bind_eq_error.mp h
      · exact ⟨[], l, ls, [], rfl, rfl, h⟩
      · obtain h | ⟨back, -, ⟨⟩⟩ := bind_eq_error.mp h
        obtain ⟨before, m, after, ms, rfl, hbefore, hm⟩ := ih h
        refine ⟨l :: before, m, after, part ++ ms, rfl, ?_, hm⟩
        rw [expand_cons, hpart, ok_bind, hbefore]
        rfl
  · rintro ⟨before, l, after, ms, rfl, hbefore, hl⟩
    rw [expand_append, hbefore, ok_bind, expand_cons, hl]
    rfl

/-- A guide fails at its first include that does, or else at the first of its lines that does. -/
theorem parse_eq_error_iff {source text : String} {e : Fault} :
    parse st directory source text = .error e ↔
      (∃ before l after ms, readLines text source = before ++ l :: after ∧
        expand st directory before = .ok ms ∧ expandLine st directory l = .error e) ∨
      ∃ before l after steps,
        expand st directory (readLines text source) = .ok (before ++ l :: after) ∧
        before.mapM parseLine = .ok steps ∧ parseLine l = .error e := by
  rw [parse, bind_eq_error, expand_eq_error_iff]
  refine or_congr_right ?_
  constructor
  · rintro ⟨ls, hls, h⟩
    obtain ⟨before, l, after, steps, rfl, hbefore, hl⟩ := mapM_eq_error_iff.mp h
    exact ⟨before, l, after, steps, hls, hbefore, hl⟩
  · rintro ⟨before, l, after, steps, hls, hbefore, hl⟩
    exact ⟨_, hls, mapM_eq_error_iff.mpr ⟨before, l, after, steps, rfl, hbefore, hl⟩⟩

/-- Where all includes are resolved, each of them includes a file. -/
theorem includes_of_expand {ls ms : List Line} (h : expand st directory ls = .ok ms) {l : Line}
    (hl : l ∈ ls) (hi : included? l ≠ none) : ∃ file text, Includes st directory l file text := by
  obtain ⟨parts, hparts, -⟩ := expand_eq_ok_iff.mp h
  have hmem : expandLine st directory l ∈ parts.map .ok := hparts ▸ List.mem_map_of_mem hl
  obtain ⟨part, -, hpart⟩ := List.mem_map.mp hmem
  obtain ⟨hnone, -⟩ | ⟨file, text, hincludes, -⟩ | ⟨f, -, hf⟩ := expandLine_cases st directory l
  · exact absurd hnone hi
  · exact ⟨file, text, hincludes⟩
  · rw [hf] at hpart
    cases hpart

/-- A line that is left when all includes are resolved stands in the guide or in a file that the
guide includes. -/
theorem at_of_mem_expand {source text : String} {ls : List Line}
    (h : expand st directory (readLines text source) = .ok ls) {l : Line} (hl : l ∈ ls)
    (reason : Reason) : (l.refuse reason).At source text ∨
      ∃ m ∈ readLines text source, ∃ file t, Includes st directory m file t ∧
        (l.refuse reason).At file.text t := by
  obtain ⟨parts, hparts, rfl⟩ := expand_eq_ok_iff.mp h
  obtain ⟨part, hpart, hl⟩ := List.mem_flatten.mp hl
  have hmem : .ok part ∈ (readLines text source).map (expandLine st directory) :=
    hparts ▸ List.mem_map_of_mem hpart
  obtain ⟨m, hm, hexpand⟩ := List.mem_map.mp hmem
  obtain ⟨-, hself⟩ | ⟨file, t, hincludes, -, hfile⟩ | ⟨f, -, hf⟩ := expandLine_cases st directory m
  · rw [hexpand] at hself
    cases hself
    obtain rfl := List.mem_singleton.mp hl
    exact .inl (at_of_mem_readLines hm reason)
  · rw [hexpand] at hfile
    cases hfile
    exact .inr ⟨m, hm, file, t, hincludes, at_of_mem_readLines hl reason⟩
  · rw [hexpand] at hf
    cases hf

end

/-- Everything that can go wrong with a line by itself: it is refused, but not for what it includes,
or a number in it has too many digits. -/
inductive LineFails (l : Line) : Fault → Prop
  | refused {reason : Reason} (h : reason.isInclude = false) :
    LineFails l (.refusal (l.refuse reason))
  | tooLong {n : Nat} (h : Json.digitLimit < n) : LineFails l (.number (.tooLong n))

namespace LineFails

variable {l : Line} {e : Fault}

theorem of_number {ds : List Char} (h : number ds = .error e) : LineFails l e := by
  unfold number at h
  split_ifs at h with hn
  cases h
  exact .tooLong hn

theorem of_modifiers {seen cs : List (List Char)} {x : Extras}
    (h : modifiers l seen x cs = .error e) : LineFails l e := by
  induction cs generalizing seen x with
  | nil => cases h
  | cons c cs ih =>
    unfold modifiers at h
    dsimp only at h
    split_ifs at h
    · cases h
      exact .refused rfl
    · split at h
      · cases h
        exact .refused rfl
      · next m hm =>
        obtain h | ⟨y, -, h⟩ := bind_eq_error.mp h
        · cases m with
          | preDelay ds =>
            obtain h | ⟨n, -, ⟨⟩⟩ := bind_eq_error.mp h
            exact of_number h
          | _ => cases h
        · exact ih h

theorem of_timeout {t : Option (List Char)} (h : timeout t = .error e) : LineFails l e := by
  cases t with
  | none => cases h
  | some ds =>
    rw [timeout] at h
    cases hn : number ds with
    | error f =>
      rw [hn] at h
      cases h
      exact of_number hn
    | ok n =>
      rw [hn] at h
      cases h

theorem of_action {d : Directive} (h : d.action l = .error e) : LineFails l e := by
  cases d with
  | waitForEvent lb ev t =>
    obtain h | ⟨n, -, ⟨⟩⟩ := bind_eq_error.mp h
    exact of_timeout h
  | expectVisible lb an t =>
    obtain h | ⟨n, -, ⟨⟩⟩ := bind_eq_error.mp h
    exact of_timeout h
  | waitMs ds =>
    obtain h | ⟨n, -, h⟩ := bind_eq_error.mp h
    · exact of_number h
    · cases n with
      | zero =>
        cases h
        exact .refused rfl
      | succ n => cases h
  | includeFragment name =>
    cases h
    exact .refused rfl
  | fill lb an source => cases source <;> cases h
  | _ => cases h

theorem of_parseLine (h : parseLine l = .error e) : LineFails l e := by
  unfold parseLine at h
  split at h
  · cases h
    exact .refused rfl
  · obtain h | ⟨x, -, h⟩ := bind_eq_error.mp h
    · exact of_modifiers h
    · split at h
      · obtain h | ⟨a, -, ⟨⟩⟩ := bind_eq_error.mp h
        exact of_action h
      · cases h
        rw [refusalReason]
        split <;> exact .refused rfl

end LineFails

/-- A refusal of a guide is about a line that stands in the guide or in a file it includes, in the
form and under the number that the line has there. If it is about an include, the includes before
it are resolved; if not, all of them are, and every line before it parses. -/
theorem parse_refusal {st : Store} {directory : Option Path} {source text : String} {r : Refusal}
    (h : parse st directory source text = .error (.refusal r)) :
    (r.At source text ∨ ∃ m ∈ readLines text source, ∃ file t, Includes st directory m file t ∧
      r.At file.text t) ∧
    (r.reason.isInclude = true → ∃ before l after ms,
      readLines text source = before ++ l :: after ∧ expand st directory before = .ok ms ∧
      expandLine st directory l = .error (.refusal r)) ∧
    (r.reason.isInclude = false →
      (∀ m ∈ readLines text source, included? m ≠ none →
        ∃ file t, Includes st directory m file t) ∧
      ∃ before l after steps,
        expand st directory (readLines text source) = .ok (before ++ l :: after) ∧
        before.mapM parseLine = .ok steps ∧ parseLine l = .error (.refusal r) ∧
        r = l.refuse r.reason) := by
  obtain ⟨before, l, after, ms, hls, hbefore, hl⟩ | ⟨before, l, after, steps, hls, hbefore, hl⟩ :=
    parse_eq_error_iff.mp h
  · have hmem : l ∈ readLines text source := by
      rw [hls]
      exact List.mem_append_right before List.mem_cons_self
    obtain ⟨hinclude, hat⟩ := (includeFails_of_expandLine hl).refusal_at hmem
    refine ⟨hat.imp_right fun ⟨file, t, hfile⟩ => ⟨l, hmem, file, t, hfile⟩,
      fun _ => ⟨before, l, after, ms, hls, hbefore, hl⟩, fun hparse => ?_⟩
    rw [hinclude] at hparse
    cases hparse
  · obtain ⟨reason, hreason, rfl⟩ : ∃ reason : Reason, reason.isInclude = false ∧
        r = l.refuse reason := by
      cases LineFails.of_parseLine hl with
      | refused hreason => exact ⟨_, hreason, rfl⟩
    refine ⟨at_of_mem_expand hls (List.mem_append_right before List.mem_cons_self) reason,
      fun hinclude => ?_, fun _ => ⟨fun m hm hi => includes_of_expand hls hm hi,
        before, l, after, steps, hls, hbefore, hl, rfl⟩⟩
    have hno : (l.refuse reason).reason.isInclude = false := hreason
    rw [hno] at hinclude
    cases hinclude

/-- A line of a fragment that is no directive, behind lines with ends of several kinds. -/
theorem parse_refusal_fragment :
    let guide := "# Tour\r\n\u2028Say: Hi\n  Include fragment: bad"
    let st : Store := ⟨[(["fragments"], .directory),
      (["fragments", "bad.md"], .file (Text.Utf8.encode "Wait 4ms\r\n\x0bTeleport\n".toList))]⟩
    let r : Refusal := ⟨.unsupported, "fragments/bad.md", some (3, "Teleport")⟩
    parse st (some "fragments") "guide" guide = .error (.refusal r) ∧
      ∃ m ∈ readLines guide "guide", ∃ file t, Includes st (some "fragments") m file t ∧
        r.At file.text t := by
  intro guide st r
  let teleport : Line := ⟨"fragments/bad.md", 3, "Teleport"⟩
  have hexpand : expand st (some "fragments") (readLines guide "guide") =
      .ok ([⟨"guide", 3, "Say: Hi"⟩, ⟨"fragments/bad.md", 1, "Wait 4ms"⟩] ++ teleport :: []) :=
    ok_of_toOption (by decide +kernel)
  have hbefore : [⟨"guide", 3, "Say: Hi"⟩, ⟨"fragments/bad.md", 1, "Wait 4ms"⟩].mapM parseLine =
      .ok [⟨.narration "Hi", {}⟩, ⟨.waitMs 4, {}⟩] := ok_of_toOption (by decide +kernel)
  have hteleport : parseLine teleport = .error (.refusal r) := by
    have hnone : Directive.ofText? (Text.trim teleport.text.toList) = none := by decide +kernel
    have hhint : hint? (Text.trim teleport.text.toList) = none := by decide +kernel
    rw [parseLine_of_no_divider (by decide +kernel), hnone, refusalReason, hhint]
    rfl
  have hparse : parse st (some "fragments") "guide" guide = .error (.refusal r) :=
    parse_eq_error_iff.mpr (.inr ⟨_, teleport, [], _, hexpand, hbefore, hteleport⟩)
  refine ⟨hparse, (parse_refusal hparse).1.resolve_left fun h => ?_⟩
  exact absurd h.source (by decide)

end Walkthrough.Guide
