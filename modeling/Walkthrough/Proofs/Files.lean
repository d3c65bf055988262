import Mathlib.Tactic.ByContra
import Mathlib.Tactic.SplitIfs
import Walkthrough.Files
import Walkthrough.Proofs.Attempt
import Walkthrough.Proofs.Text.Encoding
import Walkthrough.Proofs.Text.Lines
/-!
Files that are written: what is read back, and what writing leaves as it was. Writing a file makes
no directory and takes none away, so that every path still leads where it led.
-/

namespace Walkthrough

theorem Path.join_name (p : Path) (s : String) (h : ofString s = ⟨"", [s]⟩) :
    p / s = ⟨p.root, p.parts ++ [s]⟩ := by
  change p.join (ofString s) = _
  simp [h, join, isAbsolute]

theorem Path.getLast?_join_name (p : Path) (s : String) (h : ofString s = ⟨"", [s]⟩) :
    (p / s).parts.getLast? = some s := by
  rw [join_name p s h, List.getLast?_concat]

/-- A text without slashes is read as a name. -/
theorem Path.ofString_name {s : String} (hs : '/' ∉ s.toList) (h : s ≠ "") (h' : s ≠ ".") :
    ofString s = ⟨"", [s]⟩ := by
  have hroot : rootOf s.toList = "" := by
    unfold rootOf
    cases ht : s.toList with
    | nil => rfl
    | cons c r =>
      have hc : c ≠ '/' := by
        rintro rfl
        exact hs (by rw [ht]; exact List.mem_cons_self)
      simp [hc]
  rw [ofString, hroot, String.pieces, Text.pieces_of_not_mem hs]
  simp [h, h']

namespace Store

theorem at?_put_of_ne (st : Store) {loc other : Location} (e : Entry) (h : other ≠ loc) :
    (st.put loc e).at? other = st.at? other := by
  have hl : ∀ es : List (Location × Entry),
      List.lookup other (es.filter (·.1 != loc) ++ [(loc, e)]) = List.lookup other es := by
    intro es
    have ho : (other == loc) = false := by simpa using h
    induction es with
    | nil => simp [List.lookup_cons, ho]
    | cons x xs ih =>
      obtain ⟨l, d⟩ := x
      by_cases hx : l = loc
      · subst hx
        simpa [List.lookup_cons, ho] using ih
      · simp [hx, List.lookup_cons, ih]
  unfold at? put
  rw [hl]

/-- Two stores have directories in the same places. -/
def SameDirectories (st st' : Store) : Prop :=
  ∀ loc, st'.at? loc = some .directory ↔ st.at? loc = some .directory

theorem SameDirectories.refl (st : Store) : SameDirectories st st := fun _ => Iff.rfl

theorem SameDirectories.symm {st st' : Store} (h : SameDirectories st st') :
    SameDirectories st' st := fun loc => (h loc).symm

theorem SameDirectories.trans {st st' st'' : Store} (h : SameDirectories st st')
    (h' : SameDirectories st' st'') : SameDirectories st st'' := fun loc => (h' loc).trans (h loc)

/-- Paths lead where they led as long as no directory is taken away. -/
theorem walk_of_directories {st st' : Store}
    (h : ∀ loc, st.at? loc = some .directory → st'.at? loc = some .directory) {parts : List String}
    {loc loc' : Location} (hw : st.walk loc parts = .ok loc') : st'.walk loc parts = .ok loc' := by
  induction parts generalizing loc with
  | nil => exact hw
  | cons part parts ih =>
    unfold walk at hw ⊢
    rcases ha : st.at? loc with _ | ⟨_ | content⟩
    · rw [ha] at hw
      cases hw
    · rw [ha] at hw
      rw [h loc ha]
      dsimp only at hw ⊢
      split_ifs at hw ⊢ with hp hl
      · exact ih hw
      · exact ih hw
    · rw [ha] at hw
      cases hw

theorem locate_of_directories {st st' : Store}
    (h : ∀ loc, st.at? loc = some .directory → st'.at? loc = some .directory) {p : Path}
    {loc : Location} (hl : st.locate p = .ok loc) : st'.locate p = .ok loc := by
  unfold locate at hl ⊢
  split_ifs at hl ⊢ with hz hn ha
  · exact walk_of_directories h hl
  · exact walk_of_directories h hl

/-- Paths lead to the same places in both. -/
theorem locate_of_sameDirectories {st st' : Store} (h : SameDirectories st st') {p : Path}
    {loc : Location} (hl : st.locate p = .ok loc) : st'.locate p = .ok loc :=
  locate_of_directories (fun loc => (h loc).mpr) hl

/-- What is at a place of one store is there in another. -/
def Extends (st st' : Store) : Prop := ∀ loc e, st.at? loc = some e → st'.at? loc = some e

theorem Extends.refl (st : Store) : Extends st st := fun _ _ h => h

theorem Extends.trans {st st' st'' : Store} (h : Extends st st') (h' : Extends st' st'') :
    Extends st st'' := fun loc e he => h' loc e (h loc e he)

theorem Extends.read {st st' : Store} (h : Extends st st') {p : Path} {bytes : Text.Utf8.Bytes}
    (hr : st.read p = .ok bytes) : st'.read p = .ok bytes := by
  rcases hl : st.locate p with c | loc
  · simp [Store.read, find, hl, bind, Except.bind] at hr
  rcases ha : st.at? loc with _ | e
  · simp [Store.read, find, hl, ha, bind, Except.bind] at hr
  have hl' := locate_of_directories (fun loc => h loc .directory) hl
  simp only [Store.read, find, hl, ha, bind, Except.bind] at hr
  simp only [Store.read, find, hl', h loc e ha, bind, Except.bind, hr]

theorem extends_makeDirectory {st st' : Store} {p : Path} (h : st.makeDirectory p = .ok st') :
    Extends st st' := by
  unfold makeDirectory at h
  rcases hl : st.locate p with c | loc
  · rw [hl] at h
    cases h
  · simp only [hl, bind, Except.bind] at h
    rcases ha : st.at? loc with _ | e
    · rw [ha] at h
      cases h
      intro other e he
      rw [at?_put_of_ne, he]
      rintro rfl
      rw [ha] at he
      cases he
    · rw [ha] at h
      cases h

/-- What each directory that is made on the way to a path keeps, making them all keeps. -/
theorem makeParts_keeps {I : Store → Prop} {root : String} {way : List String}
    (h : ∀ parts, parts <+: way → ∀ st st', st.makeDirectory ⟨root, parts⟩ = .ok st' →
      I st → I st') (back : List String) (hb : back.reverse <+: way) (st : Store) (hi : I st) :
    I (makeParts root back st).2 := by
  induction back generalizing st with
  | nil => exact hi
  | cons part back ih =>
    have hmake (st : Store) (hi : I st) : I ((Attempt.outcome (Attempt.change fun st : Store =>
        st.makeDirectory ⟨root, (part :: back).reverse⟩) :
          Attempt FileFault Store (Except FileCause Unit)) st).2 :=
      Attempt.change_keeps (h _ hb) st hi
    have hlook {check : Store → Attempt FileFault Store Unit} (hc : ∀ fs st, (check fs st).2 = st)
        (st : Store) (hi : I st) : I ((get >>= check) st).2 := by
      refine Attempt.bind_keeps (fun _ hi => hi) (fun fs st hi => ?_) st hi
      rwa [hc]
    have hback : back.reverse <+: way :=
      (List.prefix_append back.reverse [part]).trans (by rwa [List.reverse_cons] at hb)
    refine Attempt.bind_keeps hmake (fun made st hi => ?_) st hi
    rcases made with cause | ⟨⟩
    · cases cause with
      | absent =>
        refine Attempt.bind_keeps (ih hback) (fun _ => Attempt.bind_keeps hmake ?_) st hi
        rintro (cause | ⟨⟩) st hi
        · exact hlook (fun fs _ => by rcases fs.hasDirectory _ with e | (_ | _) <;> rfl) st hi
        · exact hi
      | _ => exact hlook (fun fs _ => by rcases fs.hasDirectory _ with e | (_ | _) <;> rfl) st hi
    · exact hi

theorem makeDirectories_keeps {I : Store → Prop} {p : Path}
    (h : ∀ parts, parts <+: p.parts → ∀ st st', st.makeDirectory ⟨p.root, parts⟩ = .ok st' →
      I st → I st') (st : Store) (hi : I st) : I (makeDirectories p st).2 :=
  makeParts_keeps h _ (by simp) st hi

/-- A file can be written at a path. -/
def Writable (st : Store) (p : Path) : Prop :=
  ∃ loc, st.locate p = .ok loc ∧ st.at? loc ≠ some .directory

theorem Writable.of_sameDirectories {st st' : Store} (h : SameDirectories st st') {p : Path}
    (hw : st.Writable p) : st'.Writable p := by
  obtain ⟨loc, hl, hd⟩ := hw
  exact ⟨loc, locate_of_sameDirectories h hl, fun hd' => hd ((h loc).mp hd')⟩

theorem target_ok {st : Store} {p : Path} {loc : Location} {old : Text.Utf8.Bytes}
    (h : st.target p = .ok (loc, old)) : st.locate p = .ok loc ∧ st.at? loc ≠ some .directory := by
  unfold target at h
  rcases hl : st.locate p with c | loc'
  · rw [hl] at h
    cases h
  · rw [hl] at h
    rcases ha : st.at? loc' with _ | ⟨_ | content⟩
    · simp only [ha] at h
      cases h
      exact ⟨rfl, by simp [ha]⟩
    · simp only [ha] at h
      cases h
    · simp only [ha] at h
      cases h
      exact ⟨rfl, by simp [ha]⟩

theorem Writable.target {st : Store} {p : Path} (h : st.Writable p) :
    ∃ loc old, st.target p = .ok (loc, old) := by
  obtain ⟨loc, hl, hd⟩ := h
  unfold Store.target
  rw [hl]
  rcases ha : st.at? loc with _ | ⟨_ | content⟩
  · exact ⟨loc, [], by simp only [ha]⟩
  · exact absurd ha hd
  · exact ⟨loc, content, by simp only [ha]⟩

theorem writable_of_target {st : Store} {p : Path} (h : (st.target p).toOption.isSome) :
    st.Writable p := by
  rcases ht : st.target p with e | ⟨loc, old⟩
  · rw [ht] at h
    cases h
  · exact ⟨loc, target_ok ht⟩

/-- A store becomes another by a file's content at a path where no directory is. -/
def Gains (st : Store) (p : Path) (content : Text.Utf8.Bytes) (st' : Store) : Prop :=
  ∃ loc, st.locate p = .ok loc ∧ st.at? loc ≠ some .directory ∧ st' = st.put loc (.file content)

theorem write_gains {st st' : Store} {p : Path} {content : Text.Utf8.Bytes}
    (h : st.write p content = .ok st') : st.Gains p content st' := by
  unfold write at h
  rcases ht : st.target p with e | ⟨loc, old⟩
  · rw [ht] at h
    cases h
  · rw [ht] at h
    cases h
    obtain ⟨hl, hd⟩ := target_ok ht
    exact ⟨loc, hl, hd, rfl⟩

theorem append_gains {st st' : Store} {p : Path} {content : Text.Utf8.Bytes}
    (h : st.append p content = .ok st') : ∃ all, st.Gains p all st' := by
  unfold append at h
  rcases ht : st.target p with e | ⟨loc, old⟩
  · rw [ht] at h
    cases h
  · rw [ht] at h
    cases h
    obtain ⟨hl, hd⟩ := target_ok ht
    exact ⟨old ++ content, loc, hl, hd, rfl⟩

namespace Gains

variable {st st' : Store} {p : Path} {content : Text.Utf8.Bytes}

theorem sameDirectories (h : st.Gains p content st') : SameDirectories st st' := by
  obtain ⟨loc, hl, hd, rfl⟩ := h
  intro other
  by_cases ho : other = loc
  · subst ho
    have hs : other.isAlwaysThere = false := by
      by_contra hs
      exact hd (by simp [at?, hs])
    rw [at?_put_self st _ hs]
    simp [hd]
  · rw [at?_put_of_ne st _ ho]

/-- The content is read back. -/
theorem read (h : st.Gains p content st') : st'.read p = .ok content := by
  have hs := h.sameDirectories
  obtain ⟨loc, hl, hd, rfl⟩ := h
  have ha : loc.isAlwaysThere = false := by
    by_contra ha
    exact hd (by simp [at?, ha])
  have hf : (st.put loc (.file content)).find p = .ok (loc, .file content) := by
    simp only [find, locate_of_sameDirectories hs hl, at?_put_self st _ ha, bind, Except.bind]
  rw [Store.read, hf]

end Gains

theorem walk_getLast? {st : Store} {parts : List String} {loc loc' : Location} {name : String}
    (hn : name ≠ "..") (hp : parts.getLast? = some name) (hw : st.walk loc parts = .ok loc') :
    loc'.getLast? = some name := by
  induction parts generalizing loc with
  | nil => cases hp
  | cons part parts ih =>
    unfold walk at hw
    split at hw
    · cases hw
    · cases hw
    · cases parts with
      | nil =>
        simp only [List.getLast?_singleton, Option.some.injEq] at hp
        subst hp
        rw [if_neg hn] at hw
        split_ifs at hw
        cases hw
        exact List.getLast?_concat
      | cons next parts =>
        rw [List.getLast?_cons_cons] at hp
        split_ifs at hw
        · exact ih hp hw
        · exact ih hp hw

/-- A path that ends in a name leads to a place of that name. -/
theorem locate_getLast? {st : Store} {p : Path} {loc : Location} {name : String}
    (hn : name ≠ "..") (hp : p.parts.getLast? = some name) (hl : st.locate p = .ok loc) :
    loc.getLast? = some name := by
  unfold locate at hl
  split_ifs at hl
  · exact walk_getLast? hn hp hl
  · exact walk_getLast? hn hp hl

theorem lookup?_of_read {st : Store} {p : Path} {content : Text.Utf8.Bytes}
    (h : st.read p = .ok content) : st.lookup? p = .ok (some (.file content)) := by
  unfold read at h
  unfold lookup?
  rcases hf : st.find p with cause | ⟨loc, e⟩
  · rw [hf] at h
    cases h
  · rw [hf] at h
    cases e with
    | directory => cases h
    | file content' =>
      cases h
      rfl

theorem has_of_read {st : Store} {p : Path} {content : Text.Utf8.Bytes}
    (h : st.read p = .ok content) : st.has p = .ok true := by
  rw [has, lookup?_of_read h]
  rfl

/-- What is read is somewhere. -/
theorem locate_of_read {st : Store} {p : Path} {bytes : Text.Utf8.Bytes}
    (hr : st.read p = .ok bytes) : ∃ loc, st.locate p = .ok loc := by
  rcases hl : st.locate p with c | loc
  · simp [Store.read, find, hl, bind, Except.bind] at hr
  · exact ⟨loc, rfl⟩

/-- What a path leads to is read as before, unless the file is there. -/
theorem Gains.read_eq {st st' : Store} {p q : Path} {content : Text.Utf8.Bytes}
    (h : st.Gains p content st') {other : Location} (hq : st.locate q = .ok other)
    (hne : st.locate p ≠ .ok other) : st'.read q = st.read q := by
  have hs := h.sameDirectories
  obtain ⟨loc, hl, hd, rfl⟩ := h
  have ho : other ≠ loc := by
    rintro rfl
    exact hne hl
  have hf : (st.put loc (.file content)).find q = st.find q := by
    simp only [find, hq, locate_of_sameDirectories hs hq, at?_put_of_ne st _ ho, bind, Except.bind]
  rw [Store.read, hf]
  rfl

/-- Files of other names are read as before. -/
theorem Gains.read_eq_of_ne {st st' : Store} {p q : Path} {content : Text.Utf8.Bytes}
    (h : st.Gains p content st') {m n : String} (hm : p.parts.getLast? = some m) (hm' : m ≠ "..")
    (hn : q.parts.getLast? = some n) (hn' : n ≠ "..") (hne : n ≠ m) {other : Location}
    (hq : st.locate q = .ok other) : st'.read q = st.read q := by
  refine h.read_eq hq fun hl => hne ?_
  have hname := locate_getLast? hm' hm hl
  rw [locate_getLast? hn' hn hq, Option.some.injEq] at hname
  exact hname

/-- Files of other names keep what they hold. -/
theorem Gains.read_of_ne {st st' : Store} {p q : Path} {content bytes : Text.Utf8.Bytes}
    (h : st.Gains p content st') {m n : String} (hm : p.parts.getLast? = some m) (hm' : m ≠ "..")
    (hn : q.parts.getLast? = some n) (hn' : n ≠ "..") (hne : n ≠ m)
    (hr : st.read q = .ok bytes) : st'.read q = .ok bytes := by
  obtain ⟨other, hq⟩ := locate_of_read hr
  rw [h.read_eq_of_ne hm hm' hn hn' hne hq, hr]

/-- What is added to a file comes behind what it held, if it was there. -/
theorem append_read {st st' : Store} {p : Path} {content : Text.Utf8.Bytes}
    (h : st.append p content = .ok st') :
    st'.read p = .ok ((st.read p).toOption.getD [] ++ content) := by
  unfold append at h
  rcases ht : st.target p with e | ⟨loc, old⟩
  · rw [ht] at h
    cases h
  · rw [ht] at h
    cases h
    obtain ⟨hl, hd⟩ := target_ok ht
    have hold : (st.read p).toOption.getD [] = old := by
      unfold target at ht
      rw [hl] at ht
      rcases ha : st.at? loc with _ | ⟨_ | content'⟩
      · simp only [ha, Except.ok.injEq, Prod.mk.injEq] at ht
        simp [Store.read, find, hl, ha, bind, Except.bind, Except.toOption, ← ht.2]
      · exact absurd ha hd
      · simp only [ha, Except.ok.injEq, Prod.mk.injEq] at ht
        simp [Store.read, find, hl, ha, bind, Except.bind, Except.toOption, ← ht.2]
    have hg : st.Gains p (old ++ content) (st.put loc (.file (old ++ content))) :=
      ⟨loc, hl, hd, rfl⟩
    rw [hold, hg.read]

/-- A directory is at a path. -/
def HasDirectory (st : Store) (p : Path) : Prop :=
  ∃ loc, st.locate p = .ok loc ∧ st.at? loc = some .directory

theorem HasDirectory.of_sameDirectories {st st' : Store} (h : SameDirectories st st') {p : Path}
    (hd : st.HasDirectory p) : st'.HasDirectory p := by
  obtain ⟨loc, hl, hd⟩ := hd
  exact ⟨loc, locate_of_sameDirectories h hl, (h loc).mpr hd⟩

/-- A directory that is there is not made again. -/
theorem makeDirectories_of_hasDirectory {st : Store} {p : Path} (h : st.HasDirectory p) :
    makeDirectories p st = (.ok (), st) := by
  obtain ⟨loc, hl, hd⟩ := h
  have hm : st.makeDirectory p = .error .exists := by
    simp only [makeDirectory, hl, hd, bind, Except.bind]
  have ht : st.hasDirectory p = .ok true := by
    simp only [hasDirectory, lookup?, find, hl, hd, bind, Except.bind, Except.map]
  unfold makeDirectories
  cases hp : p.parts.reverse with
  | nil => rfl
  | cons part back =>
    have he : (⟨p.root, (part :: back).reverse⟩ : Path) = p := by
      rw [← hp, List.reverse_reverse]
    have hmake : (Attempt.outcome (.change fun st => st.makeDirectory p) :
        Attempt FileFault Store (Except FileCause Unit)) st = (.ok (.error .exists), st) := by
      simp only [Attempt.outcome, Attempt.change, hm]
    have hget : (get : Attempt FileFault Store Store) st = (.ok st, st) := rfl
    unfold makeParts
    simp only [he]
    rw [Attempt.bind_ok hmake]
    dsimp only
    rw [Attempt.bind_ok hget, ht]
    rfl

/-- A directory is there when it has been made. -/
theorem hasDirectory_of_makeDirectory {st st' : Store} {p : Path}
    (h : st.makeDirectory p = .ok st') : st'.HasDirectory p := by
  have hext := extends_makeDirectory h
  unfold makeDirectory at h
  rcases hl : st.locate p with c | loc
  · rw [hl] at h
    cases h
  · simp only [hl, bind, Except.bind] at h
    rcases ha : st.at? loc with _ | e
    · rw [ha] at h
      cases h
      refine ⟨loc, locate_of_directories (fun loc => hext loc .directory) hl, ?_⟩
      refine at?_put_self st _ ?_
      by_contra hthere
      rw [Bool.not_eq_false] at hthere
      simp [at?, hthere] at ha
    · rw [ha] at h
      cases h

theorem hasDirectory_of_looked {st : Store} {p : Path} (h : st.hasDirectory p = .ok true) :
    st.HasDirectory p := by
  unfold hasDirectory lookup? find at h
  rcases hl : st.locate p with c | loc
  · cases c <;> simp [hl, bind, Except.bind, Except.map] at h
  · rcases ha : st.at? loc with _ | ⟨_ | content⟩
    · simp [hl, ha, bind, Except.bind, Except.map] at h
    · exact ⟨loc, hl, ha⟩
    · simp [hl, ha, bind, Except.bind, Except.map] at h

theorem hasDirectory_of_makeDirectories {st st' : Store} {p : Path} (hp : p.parts ≠ [])
    (h : makeDirectories p st = (.ok (), st')) : st'.HasDirectory p := by
  unfold makeDirectories at h
  cases hback : p.parts.reverse with
  | nil => exact absurd (List.reverse_eq_nil_iff.mp hback) hp
  | cons part back =>
    have hself : (⟨p.root, (part :: back).reverse⟩ : Path) = p := by
      rw [← hback, List.reverse_reverse]
    rw [hback, makeParts] at h
    simp only [hself] at h
    -- a directory that could not be made is looked for
    have hlook {check : Store → Attempt FileFault Store Unit} {s : Store}
        (hc : ∀ fs s, check fs s = (.ok (), st') → fs.hasDirectory p = .ok true ∧ s = st')
        (h : (get >>= check) s = (.ok (), st')) : st'.HasDirectory p := by
      obtain ⟨fs, s', hget, h⟩ := Attempt.bind_eq_ok.mp h
      cases hget
      obtain ⟨hs, rfl⟩ := hc _ _ h
      exact hasDirectory_of_looked hs
    have hmade {s s' : Store} {x : Except FileCause Unit}
        (h : (Attempt.outcome (.change fun st => st.makeDirectory p) :
          Attempt FileFault Store (Except FileCause Unit)) s = (.ok x, s')) (hx : x = .ok ()) :
        s'.HasDirectory p := by
      unfold Attempt.outcome Attempt.change at h
      rcases hm : s.makeDirectory p with c | fs
      · simp only [hm] at h
        cases h
        cases hx
      · simp only [hm] at h
        cases h
        exact hasDirectory_of_makeDirectory hm
    obtain ⟨made, s, hmake, h⟩ := Attempt.bind_eq_ok.mp h
    rcases made with cause | ⟨⟩
    · cases cause with
      | absent =>
        obtain ⟨⟨⟩, s', -, h⟩ := Attempt.bind_eq_ok.mp h
        obtain ⟨made, s'', hmake, h⟩ := Attempt.bind_eq_ok.mp h
        rcases made with cause | ⟨⟩
        · refine hlook (fun fs s h => ?_) h
          rcases hs : fs.hasDirectory p with e | _ | _ <;> rw [hs] at h <;> cases h
          exact ⟨rfl, rfl⟩
        · cases h
          exact hmade hmake rfl
      | _ =>
        refine hlook (fun fs s h => ?_) h
        rcases hs : fs.hasDirectory p with e | _ | _ <;> rw [hs] at h <;> cases h
        exact ⟨rfl, rfl⟩
    · cases h
      exact hmade hmake rfl

end Store

namespace Filing

open Text.Utf8 (Bytes encode)

theorem change_mapError_ok {f : Store → Except FileFault Store} {st st' : Store}
    (h : (Attempt.change fun st => (f st).mapError Fault.file : Filing Unit) st = (.ok (), st')) :
    f st = .ok st' := by
  unfold Attempt.change at h
  rcases hf : f st with e | st''
  · simp only [hf, Except.mapError] at h
    cases h
  · simp only [hf, Except.mapError] at h
    cases h
    rfl

theorem write_gains {st st' : Store} {p : Path} {content : Bytes}
    (h : write p content st = (.ok (), st')) : st.Gains p content st' :=
  Store.write_gains (change_mapError_ok h)

theorem append_gains {st st' : Store} {p : Path} {content : Bytes}
    (h : append p content st = (.ok (), st')) : ∃ all, st.Gains p all st' :=
  Store.append_gains (change_mapError_ok h)

/-- Making directories leaves every file as it was. -/
theorem makeDirectories_read {st : Store} {p q : Path} {bytes : Bytes}
    (hr : st.read q = .ok bytes) :
    (makeDirectories p st).2.read q = .ok bytes := by
  have hext : Store.Extends st (Store.makeDirectories p st).2 :=
    Store.makeDirectories_keeps (fun _ _ _ _ hm hi => hi.trans (Store.extends_makeDirectory hm)) st
      (.refl st)
  exact hext.read hr

/-- A file that cannot be written is left as it was. -/
theorem write_cases (st : Store) (p : Path) (content : Bytes) :
    (write p content st).2 = st ∨ st.Gains p content (write p content st).2 := by
  rcases hw : write p content st with ⟨e | x, st'⟩
  · unfold write Attempt.change at hw
    split at hw <;> cases hw
    exact .inl rfl
  · exact .inr (write_gains hw)

theorem append_cases (st : Store) (p : Path) (content : Bytes) :
    (append p content st).2 = st ∨ ∃ all, st.Gains p all (append p content st).2 := by
  rcases hw : append p content st with ⟨e | x, st'⟩
  · unfold append Attempt.change at hw
    split at hw <;> cases hw
    exact .inl rfl
  · exact .inr (append_gains hw)

theorem write_fst (st : Store) (p : Path) (content : Text.Utf8.Bytes) :
    (write p content st).1 = ((st.target p).map fun _ => ()).mapError .file := by
  simp only [write, Attempt.change, Store.write]
  rcases st.target p with e | ⟨loc, old⟩ <;> rfl

theorem append_fst (st : Store) (p : Path) (content : Text.Utf8.Bytes) :
    (append p content st).1 = ((st.target p).map fun _ => ()).mapError .file := by
  simp only [append, Attempt.change, Store.append]
  rcases st.target p with e | ⟨loc, old⟩ <;> rfl

/-- A file that is written takes no directory away and makes none, even if writing fails. -/
theorem write_sameDirectories (st : Store) (p : Path) (content : Bytes) :
    st.SameDirectories (write p content st).2 := by
  obtain h | h := write_cases st p content
  · rw [h]
    exact .refl st
  · exact h.sameDirectories

theorem append_sameDirectories (st : Store) (p : Path) (content : Bytes) :
    st.SameDirectories (append p content st).2 := by
  obtain h | ⟨_, h⟩ := append_cases st p content
  · rw [h]
    exact .refl st
  · exact h.sameDirectories

/-- What is added to a file leaves files of other names as they were, even if it fails. -/
theorem append_read_of_ne {st : Store} {p q : Path} {bytes : Bytes} {m n : String}
    (hm : p.parts.getLast? = some m) (hm' : m ≠ "..") (hn : q.parts.getLast? = some n)
    (hn' : n ≠ "..") (hne : n ≠ m) (content : Bytes) (hr : st.read q = .ok bytes) :
    (append p content st).2.read q = .ok bytes := by
  obtain h | ⟨_, h⟩ := append_cases st p content
  · rw [h, hr]
  · exact h.read_of_ne hm hm' hn hn' hne hr

/-- What a text file is written with is in it. -/
theorem writeText_read {st st' : Store} {p : Path} {text : String}
    (h : writeText p text st = (.ok (), st')) : st'.read p = .ok (encode text.toList) := by
  obtain ⟨-, st₁, -, hw⟩ := Attempt.bind_eq_ok.mp h
  exact (write_gains hw).read

/-- A text file that is written leaves the files at other places as they were. -/
theorem writeText_read_of_locate_ne {st st' : Store} {p q : Path} {text : String} {bytes : Bytes}
    (h : writeText p text st = (.ok (), st')) (hne : st'.locate q ≠ st'.locate p)
    (hr : st.read q = .ok bytes) : st'.read q = .ok bytes := by
  obtain ⟨⟨⟩, st₁, hm, hw⟩ := Attempt.bind_eq_ok.mp h
  have hg := write_gains hw
  have hr₁ : st₁.read q = .ok bytes := by
    have hkept := makeDirectories_read (p := p.parent) hr
    rwa [hm] at hkept
  obtain ⟨other, hq⟩ := Store.locate_of_read hr₁
  have hs := hg.sameDirectories
  have hp : st₁.locate p ≠ .ok other := fun hp => hne <| by
    rw [Store.locate_of_sameDirectories hs hq, Store.locate_of_sameDirectories hs hp]
  rw [hg.read_eq hq hp, hr₁]

/-- Writing a text file leaves files of other names as they were, even if it fails. -/
theorem writeText_read_of_ne {st : Store} {p q : Path} {bytes : Bytes} {m n : String}
    (hm : p.parts.getLast? = some m) (hm' : m ≠ "..") (hn : q.parts.getLast? = some n)
    (hn' : n ≠ "..") (hne : n ≠ m) (text : String) (hr : st.read q = .ok bytes) :
    (writeText p text st).2.read q = .ok bytes := by
  refine Attempt.bind_keeps (I := fun fs : Store => fs.read q = .ok bytes)
    (fun _ => makeDirectories_read) (fun _ fs hr => ?_) st hr
  obtain h | h := write_cases fs p (encode text.toList)
  · rw [h, hr]
  · exact h.read_of_ne hm hm' hn hn' hne hr

theorem write_of_writable {st : Store} {p : Path} (h : st.Writable p) (content : Bytes) :
    ∃ st', write p content st = (.ok (), st') ∧ st.Gains p content st' := by
  obtain ⟨loc, old, ht⟩ := h.target
  have hw : write p content st = (.ok (), st.put loc (.file content)) := by
    simp only [write, Attempt.change, Store.write, ht, bind, Except.bind, Except.mapError]
  exact ⟨_, hw, write_gains hw⟩

theorem append_of_writable {st : Store} {p : Path} (h : st.Writable p) (content : Bytes) :
    ∃ st' all, append p content st = (.ok (), st') ∧ st.Gains p all st' := by
  obtain ⟨loc, old, ht⟩ := h.target
  have hw : append p content st = (.ok (), st.put loc (.file (old ++ content))) := by
    simp only [append, Attempt.change, Store.append, ht, bind, Except.bind, Except.mapError]
  obtain ⟨all, hg⟩ := append_gains hw
  exact ⟨_, all, hw, hg⟩

theorem append_read_of_writable {st : Store} {p : Path} (h : st.Writable p) (content : Bytes) :
    ∃ st', append p content st = (.ok (), st') ∧ st.SameDirectories st' ∧
      st'.read p = .ok ((st.read p).toOption.getD [] ++ content) := by
  obtain ⟨st', all, ha, hg⟩ := append_of_writable h content
  exact ⟨st', ha, hg.sameDirectories, Store.append_read (change_mapError_ok ha)⟩

theorem makeDirectories_of_hasDirectory {st : Store} {p : Path} (h : st.HasDirectory p) :
    makeDirectories p st = (.ok (), st) := by
  unfold makeDirectories Attempt.withCause
  rw [Attempt.focus_apply]
  simp only [id, Store.makeDirectories_of_hasDirectory h]
  rfl

theorem writeText_of_writable {st : Store} {p : Path} (hd : st.HasDirectory p.parent)
    (h : st.Writable p) (text : String) :
    ∃ st', writeText p text st = (.ok (), st') ∧ st.Gains p (encode text.toList) st' := by
  obtain ⟨st', hw, hg⟩ := write_of_writable h (encode text.toList)
  refine ⟨st', ?_, hg⟩
  unfold writeText
  rw [Attempt.bind_ok (makeDirectories_of_hasDirectory hd), hw]

end Filing

/-- A fault of reading a text is one of the file or of its bytes. -/
theorem readText_fault {st : Store} {p : Path} {f : Fault} (h : readText st p = .error f) :
    (∃ e, st.read p = .error e ∧ f = .file e) ∨ ∃ e, f = .utf8 e := by
  unfold readText at h
  rcases hr : st.read p with e | bytes
  · rw [hr] at h
    cases h
    exact .inl ⟨e, rfl, rfl⟩
  · rw [hr] at h
    change ((Text.Utf8.decode bytes).mapError Fault.utf8 >>= _) = _ at h
    rcases hd : Text.Utf8.decode bytes with e | s
    · rw [hd] at h
      cases h
      exact .inr ⟨e, rfl⟩
    · rw [hd] at h
      cases h

/-- A text without returns is read as it was written. -/
theorem readText_of_read {st : Store} {p : Path} {text : String} (hr : '\r' ∉ text.toList)
    (h : st.read p = .ok (Text.Utf8.encode text.toList)) : readText st p = .ok text := by
  simp only [readText, h, Except.mapError, bind, Except.bind, Text.Utf8.decode_encode,
    Text.unifyLineEnds_of_not_mem hr, String.ofList_toList]

end Walkthrough
