import Walkthrough.Proofs.Except
import Walkthrough.Proofs.Files
/-!
Where paths lead, and where an action leaves its traces: a file lies directly in its directory, and
work on some files of a directory changes nothing but those files and the directories on the way.
-/

namespace Walkthrough

namespace Path

/-- A text is a name: a part of a path by itself, and not the way up. -/
structure IsName (s : String) : Prop where
  single : ofString s = ⟨"", [s]⟩
  ne_up : s ≠ ".."

theorem IsName.ne_empty {s : String} (h : IsName s) : s ≠ "" := by
  rintro rfl
  exact absurd h.single (by decide)

theorem IsName.ne_self {s : String} (h : IsName s) : s ≠ "." := by
  rintro rfl
  exact absurd h.single (by decide)

/-- The texts without slashes are names, but for those that stand for no part or for the way up. -/
theorem IsName.of_not_mem {s : String} (hs : '/' ∉ s.toList) (hempty : s ≠ "") (hself : s ≠ ".")
    (hup : s ≠ "..") : IsName s := ⟨ofString_name hs hempty hself, hup⟩

theorem text_join_name {p : Path} {s : String} (h : ofString s = ⟨"", [s]⟩) : (p / s).text =
    p.root ++ (if p.parts = [] then "" else "/".intercalate p.parts ++ "/") ++ s := by
  have hne : s ≠ "" := by
    rintro rfl
    cases h
  have hjoined : "/".intercalate (p.parts ++ [s]) =
      (if p.parts = [] then "" else "/".intercalate p.parts ++ "/") ++ s := by
    split_ifs with hp
    · simp [hp]
    · rw [String.intercalate_append_of_ne_nil hp (List.cons_ne_nil _ _),
        String.intercalate_singleton]
  rw [join_name p s h, text, hjoined, ← String.append_assoc]
  split
  · next he => exact absurd (String.append_eq_empty_iff.mp he).2 hne
  · rfl

/-- Files of one directory whose paths are written alike have the same name. -/
theorem name_inj_of_text {p : Path} {s t : String} (hs : ofString s = ⟨"", [s]⟩)
    (ht : ofString t = ⟨"", [t]⟩) (h : (p / s).text = (p / t).text) : s = t := by
  rw [text_join_name hs, text_join_name ht] at h
  exact (String.append_right_inj _).mp h

/-- A directory's path is written with no other characters than a path in it, and not longer. -/
theorem text_of_join_name {p : Path} {s : String} (h : ofString s = ⟨"", [s]⟩) :
    (∀ c ∈ p.text.toList, c ∈ (p / s).text.toList ∨ c = '.') ∧
      p.text.utf8ByteSize ≤ (p / s).text.utf8ByteSize := by
  have hne : s ≠ "" := by
    rintro rfl
    cases h
  have hsize : 1 ≤ s.utf8ByteSize := by
    by_contra hs
    have hzero : s.utf8ByteSize = 0 := by omega
    exact hne (String.utf8ByteSize_eq_zero_iff.mp hzero)
  obtain ⟨rest, hrest, hlong⟩ : ∃ rest, (p / s).text = p.root ++ "/".intercalate p.parts ++ rest ∧
      1 ≤ rest.utf8ByteSize := by
    rw [text_join_name h]
    split_ifs with hp
    · exact ⟨s, by simp [hp], hsize⟩
    · refine ⟨"/" ++ s, by simp [String.append_assoc], ?_⟩
      rw [String.utf8ByteSize_append]
      omega
  rw [hrest]
  unfold text
  split
  · next hempty =>
    rw [hempty, String.empty_append]
    exact ⟨fun c hc => .inr (by simpa using hc), hlong⟩
  · refine ⟨fun c hc => .inl ?_, ?_⟩
    · rw [String.toList_append]
      exact List.mem_append_left _ hc
    · simp only [String.utf8ByteSize_append]
      omega

end Path

namespace Store

/-- A name is looked up in the directory that the parts before it lead to. -/
theorem walk_concat {st : Store} {parts : List String} {s : String} {loc loc' : Location}
    (hs : s ≠ "..") (hw : st.walk loc (parts ++ [s]) = .ok loc') :
    ∃ dir, st.walk loc parts = .ok dir ∧ st.at? dir = some .directory ∧ loc' = dir ++ [s] := by
  induction parts generalizing loc with
  | nil =>
    rw [List.nil_append, walk] at hw
    rcases ha : st.at? loc with _ | ⟨_ | content⟩
    · rw [ha] at hw
      cases hw
    · rw [ha] at hw
      dsimp only at hw
      rw [if_neg hs] at hw
      split_ifs at hw
      cases hw
      exact ⟨loc, rfl, ha, rfl⟩
    · rw [ha] at hw
      cases hw
  | cons part parts ih =>
    rw [List.cons_append, walk] at hw
    rw [walk]
    rcases ha : st.at? loc with _ | ⟨_ | content⟩
    · rw [ha] at hw
      cases hw
    · rw [ha] at hw
      dsimp only at hw ⊢
      split_ifs at hw ⊢ with hp hl
      · exact ih hw
      · exact ih hw
    · rw [ha] at hw
      cases hw

/-- A named file is directly in its directory. -/
theorem locate_join_name {st : Store} {p : Path} {s : String} {loc : Location} (hs : Path.IsName s)
    (h : st.locate (p / s) = .ok loc) :
    ∃ dir, st.locate p = .ok dir ∧ st.at? dir = some .directory ∧ loc = dir ++ [s] := by
  obtain ⟨hchars, hsize⟩ := Path.text_of_join_name (p := p) hs.single
  have hparts : (p / s).parts = p.parts ++ [s] := by rw [Path.join_name p s hs.single]
  have hroot : (p / s).root = p.root := by rw [Path.join_name p s hs.single]
  have habsolute : (p / s).isAbsolute = p.isAbsolute := by
    rw [Path.isAbsolute, hroot, Path.isAbsolute]
  unfold locate at h
  split_ifs at h with hzero hlong ha
  all_goals
    have hzero' : ¬p.text.toList.contains '\x00' = true := by
      intro hc
      rcases hchars _ (List.contains_iff_mem.mp hc) with hm | hm
      · exact hzero (List.contains_iff_mem.mpr hm)
      · cases hm
    have hlong' : ¬isLongPath p = true := by
      unfold isLongPath at hlong ⊢
      simp only [decide_eq_true_eq] at hlong ⊢
      omega
    rw [habsolute] at ha
    rw [hparts] at h
    unfold locate
    rw [if_neg hzero', if_neg hlong']
  · rw [hroot] at h
    rw [if_pos ha]
    exact walk_concat hs.ne_up h
  · rw [if_neg ha]
    exact walk_concat hs.ne_up h

/-- What a directory lies in is a directory. -/
theorem HasDirectory.of_join {st : Store} {p : Path} {s : String} (hs : Path.IsName s)
    (h : st.HasDirectory (p / s)) : st.HasDirectory p := by
  obtain ⟨loc, hl, -⟩ := h
  obtain ⟨dir, hdir, hthere, -⟩ := locate_join_name hs hl
  exact ⟨dir, hdir, hthere⟩

/-- What follows parts is followed from where they lead to. -/
theorem walk_append {st : Store} {parts : List String} {loc dir : Location}
    (h : st.walk loc parts = .ok dir) (rest : List String) :
    st.walk loc (parts ++ rest) = st.walk dir rest := by
  induction parts generalizing loc with
  | nil =>
    cases h
    rfl
  | cons part parts ih =>
    rw [walk] at h
    rw [List.cons_append, walk]
    rcases ha : st.at? loc with _ | ⟨_ | content⟩
    · rw [ha] at h
      cases h
    · rw [ha] at h
      dsimp only at h ⊢
      split_ifs at h ⊢ with hp hl
      · exact ih h
      · exact ih h
    · rw [ha] at h
      cases h

theorem locate_eq_walk (st : Store) (p : Path) : st.locate p =
    if p.text.toList.contains '\x00' then .error .zeroCharacter
    else if isLongPath p then .error .nameTooLong
    else st.walk (if p.isAbsolute then [p.root] else []) p.parts := by
  unfold locate
  by_cases ha : p.isAbsolute = true
  · rw [if_pos ha, if_pos ha]
  · rw [if_neg ha, if_neg ha]

section

variable {st st' : Store} {p : Path} {s : String}

/-- A name in a directory leads to the same place, or fails to with the same cause, in stores with
the same directories. -/
theorem locate_join_congr (h : SameDirectories st st') (hp : st.HasDirectory p)
    (hs : Path.IsName s) : st'.locate (p / s) = st.locate (p / s) := by
  obtain ⟨dir, hl, hd⟩ := hp
  have hstart (fs : Store) (hl : fs.locate p = .ok dir) :
      fs.walk (if (p / s).isAbsolute then [(p / s).root] else []) (p / s).parts =
        fs.walk dir [s] := by
    rw [locate_eq_walk] at hl
    split at hl
    · cases hl
    split at hl
    · cases hl
    rw [Path.join_name p s hs.single]
    exact walk_append hl [s]
  have hname : st'.walk dir [s] = st.walk dir [s] := by
    simp only [walk, hd, (h dir).mpr hd]
  rw [locate_eq_walk, locate_eq_walk, hstart st hl,
    hstart st' (locate_of_sameDirectories h hl), hname]

/-- So does writing there. -/
theorem target_join_congr (h : SameDirectories st st') (hp : st.HasDirectory p)
    (hs : Path.IsName s) :
    (st'.target (p / s)).map (fun _ => ()) = (st.target (p / s)).map (fun _ => ()) := by
  unfold target
  rw [locate_join_congr h hp hs]
  rcases st.locate (p / s) with c | loc
  · rfl
  · dsimp only
    have hd := h loc
    rcases ha : st.at? loc with _ | ⟨_ | content⟩ <;>
      rcases ha' : st'.at? loc with _ | ⟨_ | content'⟩ <;> simp_all [Except.map]

end

/-- What is read is what the place that a path leads to holds. -/
theorem read_eq_ok {st : Store} {p : Path} {bytes : Text.Utf8.Bytes} :
    st.read p = .ok bytes ↔ ∃ loc, st.locate p = .ok loc ∧ st.at? loc = some (.file bytes) := by
  unfold Store.read find
  constructor
  · intro h
    rcases hl : st.locate p with c | loc
    · rw [hl] at h
      cases h
    · rw [hl, ok_bind] at h
      rcases ha : st.at? loc with _ | ⟨_ | content⟩
      · rw [ha] at h
        cases h
      · rw [ha] at h
        cases h
      · rw [ha] at h
        cases h
        exact ⟨loc, rfl, ha⟩
  · rintro ⟨loc, hl, ha⟩
    rw [hl, ok_bind, ha]

/-- What is put directly in a directory is there under its name once, behind all others. -/
theorem names_put (st : Store) (dir : Location) (name : String) (e : Entry) :
    (st.put (dir ++ [name]) e).names dir = (st.names dir).filter (· != name) ++ [name] := by
  unfold names put
  rw [List.filterMap_append, List.filterMap_filter, List.filter_filterMap]
  congr 1
  · congr 1
    funext ⟨loc, held⟩
    dsimp only
    by_cases hdir : loc.dropLast = dir
    · cases hlast : loc.getLast? with
      | none =>
        rw [if_pos hdir]
        simp
      | some other =>
        obtain ⟨above, rfl⟩ := List.getLast?_eq_some_iff.mp hlast
        rw [List.dropLast_concat] at hdir
        subst hdir
        by_cases hname : other = name <;> simp [hname, Option.filter_some]
    · have hne : loc ≠ dir ++ [name] := by
        rintro rfl
        exact hdir List.dropLast_concat
      simp [hdir, hne]
  · simp

/-- A path leads to a place by some of its first parts. -/
def OnWay (st : Store) (p : Path) (loc : Location) : Prop :=
  ∃ parts, parts <+: p.parts ∧ st.locate ⟨p.root, parts⟩ = .ok loc

/-- What becomes of a place when some files are written and directories made on the way to them. -/
inductive Touched (way : Path) (files : Path → Prop) (st st' : Store) (loc : Location) : Prop
  | same (h : st'.at? loc = st.at? loc)
  | file (p : Path) (content : Text.Utf8.Bytes) (hp : files p) (hl : st'.locate p = .ok loc)
      (h : st'.at? loc = some (.file content))
  | made (hway : st'.OnWay way loc) (hno : st.at? loc = none) (h : st'.at? loc = some .directory)

/-- A store becomes another by the writing of some files, and of directories on the way to them. -/
structure Touches (way : Path) (files : Path → Prop) (st st' : Store) : Prop where
  directories : ∀ loc, st.at? loc = some .directory → st'.at? loc = some .directory
  places : ∀ loc, Touched way files st st' loc

theorem OnWay.of_directories {st st' : Store} {p : Path} {loc : Location}
    (h : ∀ loc, st.at? loc = some .directory → st'.at? loc = some .directory)
    (hw : st.OnWay p loc) : st'.OnWay p loc := by
  obtain ⟨parts, hparts, hl⟩ := hw
  exact ⟨parts, hparts, locate_of_directories h hl⟩

namespace Touches

variable {way : Path} {files : Path → Prop} {st st' st'' : Store}

theorem refl (st : Store) : Touches way files st st := ⟨fun _ h => h, fun _ => .same rfl⟩

theorem trans (h : Touches way files st st') (h' : Touches way files st' st'') :
    Touches way files st st'' := by
  refine ⟨fun loc hd => h'.directories loc (h.directories loc hd), fun loc => ?_⟩
  cases h'.places loc with
  | same h2 =>
    cases h.places loc with
    | same h1 => exact .same (h2.trans h1)
    | file p content hp hl h1 =>
      exact .file p content hp (locate_of_directories h'.directories hl) (h2.trans h1)
    | made hway hno h1 => exact .made (hway.of_directories h'.directories) hno (h2.trans h1)
  | file p content hp hl h2 => exact .file p content hp hl h2
  | made hway hno h2 =>
    cases h.places loc with
    | same h1 => exact .made hway (h1.symm.trans hno) h2
    | file p content hp hl h1 =>
      rw [h1] at hno
      cases hno
    | made hway' hno' h1 =>
      rw [h1] at hno
      cases hno

theorem mono {way' : Path} {files' : Path → Prop} (h : Touches way files st st')
    (hway : way.root = way'.root ∧ way.parts <+: way'.parts) (hfiles : ∀ p, files p → files' p) :
    Touches way' files' st st' := by
  refine ⟨h.directories, fun loc => ?_⟩
  cases h.places loc with
  | same h1 => exact .same h1
  | file p content hp hl h1 => exact .file p content (hfiles p hp) hl h1
  | made hw hno h1 =>
    obtain ⟨parts, hparts, hl⟩ := hw
    rw [hway.1] at hl
    exact .made ⟨parts, hparts.trans hway.2, hl⟩ hno h1

theorem of_gains {p : Path} {content : Text.Utf8.Bytes} (hp : files p)
    (h : st.Gains p content st') : Touches way files st st' := by
  have hsame := h.sameDirectories
  refine ⟨fun loc => (hsame loc).mpr, fun other => ?_⟩
  obtain ⟨loc, hl, hd, rfl⟩ := h
  by_cases ho : other = loc
  · subst ho
    have hthere : other.isAlwaysThere = false := by
      by_contra hthere
      exact hd (by simp [at?, hthere])
    exact .file p content hp (locate_of_sameDirectories hsame hl) (at?_put_self st _ hthere)
  · exact .same (at?_put_of_ne st _ ho)

theorem makeDirectory {parts : List String} (hparts : parts <+: way.parts)
    (h : st.makeDirectory ⟨way.root, parts⟩ = .ok st') : Touches way files st st' := by
  unfold Store.makeDirectory at h
  obtain ⟨loc, hl, h⟩ := bind_eq_ok.mp h
  rcases ha : st.at? loc with _ | e
  · rw [ha] at h
    cases h
    have hthere : loc.isAlwaysThere = false := by
      by_contra hthere
      rw [at?, if_pos (by simpa using hthere)] at ha
      cases ha
    have hself := at?_put_self st .directory hthere
    have hkept (other : Location) (hd : st.at? other = some .directory) :
        (st.put loc .directory).at? other = some .directory := by
      by_cases ho : other = loc
      · rw [ho, hself]
      · rw [at?_put_of_ne st _ ho, hd]
    refine ⟨hkept, fun other => ?_⟩
    by_cases ho : other = loc
    · subst ho
      exact .made ⟨parts, hparts, locate_of_directories hkept hl⟩ ha hself
    · exact .same (at?_put_of_ne st _ ho)
  · rw [ha] at h
    cases h

theorem makeDirectories (st : Store) : Touches way files st (Store.makeDirectories way st).2 :=
  makeDirectories_keeps (fun _ hparts _ _ hm h => h.trans (makeDirectory hparts hm)) st (.refl st)

end Touches

end Store

namespace Filing

open Store (Touches)

variable {files : Path → Prop}

/-- A directory is there when it and those above it have been made. -/
theorem hasDirectory_of_makeDirectories {st st' : Store} {p : Path} (hp : p.parts ≠ [])
    (h : makeDirectories p st = (.ok (), st')) : st'.HasDirectory p := by
  unfold makeDirectories Attempt.withCause at h
  rw [Attempt.focus_apply] at h
  obtain ⟨hr, rfl⟩ := Prod.mk.inj h
  exact Store.hasDirectory_of_makeDirectories hp (Prod.ext (mapError_eq_ok.mp hr) rfl)

section

variable {st st' : Store} {p : Path} {s : String}

/-- Writing named files of a directory ends in the same way in stores with the same directories,
and leaves them so. -/
theorem write_join_congr (h : st.SameDirectories st') (hp : st.HasDirectory p)
    (hs : Path.IsName s) (content content' : Text.Utf8.Bytes) :
    (write (p / s) content' st').1 = (write (p / s) content st).1 ∧
      (write (p / s) content st).2.SameDirectories (write (p / s) content' st').2 := by
  rw [write_fst, write_fst, Store.target_join_congr h hp hs]
  exact ⟨rfl, (write_sameDirectories st _ _).symm.trans (h.trans (write_sameDirectories st' _ _))⟩

theorem append_join_congr (h : st.SameDirectories st') (hp : st.HasDirectory p)
    (hs : Path.IsName s) (content content' : Text.Utf8.Bytes) :
    (append (p / s) content' st').1 = (append (p / s) content st).1 ∧
      (append (p / s) content st).2.SameDirectories (append (p / s) content' st').2 := by
  rw [append_fst, append_fst, Store.target_join_congr h hp hs]
  exact ⟨rfl, (append_sameDirectories st _ _).symm.trans (h.trans (append_sameDirectories st' _ _))⟩

end

theorem makeDirectories_touches (way : Path) (st : Store) :
    Touches way files st (makeDirectories way st).2 := Touches.makeDirectories st

theorem write_touches {way p : Path} (hp : files p) (content : Text.Utf8.Bytes) (st : Store) :
    Touches way files st (write p content st).2 := by
  obtain h | h := write_cases st p content
  · rw [h]
    exact .refl st
  · exact .of_gains hp h

theorem append_touches {way p : Path} (hp : files p) (content : Text.Utf8.Bytes) (st : Store) :
    Touches way files st (append p content st).2 := by
  obtain h | ⟨_, h⟩ := append_cases st p content
  · rw [h]
    exact .refl st
  · exact .of_gains hp h

theorem writeText_touches {p : Path} (hp : files p) (text : String) (st : Store) :
    Touches p.parent files st (writeText p text st).2 :=
  Attempt.bind_keeps (I := Touches p.parent files st)
    (fun st' h => h.trans (makeDirectories_touches _ st'))
    (fun _ st' h => h.trans (write_touches hp _ st')) st (.refl st)

/-- A text that was written is in its file, which is directly in its directory. Nothing else was
done but that directories were made on the way there. -/
theorem writeText_spec {directory : Path} {name text : String} {st st' : Store}
    (hn : Path.IsName name) (h : writeText (directory / name) text st = (.ok (), st')) :
    ∃ dir, st'.locate directory = .ok dir ∧ st'.at? dir = some .directory ∧
      st'.locate (directory / name) = .ok (dir ++ [name]) ∧
      st'.at? (dir ++ [name]) = some (.file (Text.Utf8.encode text.toList)) ∧
      ∀ loc, loc ≠ dir ++ [name] → st'.at? loc = st.at? loc ∨
        (st.at? loc = none ∧ st'.at? loc = some .directory ∧ st'.OnWay directory loc) := by
  obtain ⟨file, hfile, hcontent⟩ := Store.read_eq_ok.mp (writeText_read h)
  obtain ⟨dir, hdir, hthere, rfl⟩ := Store.locate_join_name hn hfile
  refine ⟨dir, hdir, hthere, hfile, hcontent, fun loc hloc => ?_⟩
  have htouches : Store.Touches (directory / name).parent (· = directory / name) st
      (writeText (directory / name) text st).2 := by
    apply writeText_touches
    rfl
  rw [h, Path.parent_join_name _ _ hn.single] at htouches
  cases htouches.places loc with
  | same hsame => exact .inl hsame
  | file p content hp hl =>
    subst hp
    rw [hfile] at hl
    cases hl
    exact absurd rfl hloc
  | made hway hno hmade => exact .inr ⟨hno, hmade, hway⟩

/-- The file of a text that was written is in the list of its directory once. -/
theorem writeText_names {directory : Path} {name text : String} {st st' : Store}
    (hn : Path.IsName name) (h : writeText (directory / name) text st = (.ok (), st')) :
    ∃ others, st'.namesIn directory = others ++ [name] ∧ name ∉ others := by
  obtain ⟨dir, hdir, hthere, hfile, -⟩ := writeText_spec hn h
  obtain ⟨-, st₁, -, hw⟩ := Attempt.bind_eq_ok.mp h
  have hgains := write_gains hw
  have hsame := hgains.sameDirectories
  obtain ⟨loc, hl, -, rfl⟩ := hgains
  have hloc : loc = dir ++ [name] := by
    have hl' := Store.locate_of_sameDirectories hsame hl
    rw [hfile] at hl'
    cases hl'
    rfl
  refine ⟨(st₁.names dir).filter (· != name), ?_, by simp⟩
  unfold Store.namesIn Store.find
  rw [hdir, ok_bind, hthere]
  rw [hloc]
  exact Store.names_put st₁ dir name _

end Filing

end Walkthrough
