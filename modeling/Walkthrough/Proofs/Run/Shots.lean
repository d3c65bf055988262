import Walkthrough.Proofs.Run.Inventory
import Walkthrough.Proofs.Tour.Format
/-!
The screenshots of a run: they are some of those that its steps plan, in their order, and the file
of each is there when the run ends. Two of them share a file exactly if they are of one step whose
action and whose capture keep the same of their names.
-/

namespace Walkthrough

open Run

/-- The file of a screenshot. -/
def Shot.file (directory : Path) (s : Shot) : Path := shotPath directory s.step.toNat s.name

/-- A screenshot was made at a step. -/
def Shot.isOf (index : Nat) (s : Shot) : Bool := s.step == index

/-- A screenshot that a step plans. -/
def plannedShot (directory : Path) (index : Nat) (name : String) (fullPage : Option Bool) : Shot :=
  ⟨name, (shotPath directory index name).text, index, (fullPage.map Json.bool).getD (.bool true)⟩

theorem plannedShot_path (directory : Path) (i : Nat) (n : String) (f : Option Bool) :
    (plannedShot directory i n f).path = (shotPath directory i n).text := by
  rw [plannedShot]

theorem plannedShot_file (directory : Path) (i : Nat) (n : String) (f : Option Bool) :
    (plannedShot directory i n f).file directory = shotPath directory i n := by
  rw [Shot.file, plannedShot, Int.toNat_natCast]

/-- Screenshots of a step share a file if the same is left of their names. -/
theorem plannedShot_path_inj {directory : Path} {i : Nat} {m n : String} {f g : Option Bool}
    (hm : m ≠ "") (hn : n ≠ "") :
    (plannedShot directory i m f).path = (plannedShot directory i n g).path ↔
      fileName m.toList = fileName n.toList := by
  rw [plannedShot_path, plannedShot_path]
  constructor
  · intro h
    have hsafe := (shotPath_text_inj h).2
    rw [safeName_of_ne hm, safeName_of_ne hn] at hsafe
    exact String.ofList_injective hsafe
  · intro h
    have hsafe : safeName i m = safeName i n := by
      rw [safeName_of_ne hm, safeName_of_ne hn, h]
    rw [shotPath_eq, shotPath_eq, shotName, shotName, hsafe]

namespace Step

/-- The screenshot of a step's action. -/
def actionShot? (directory : Path) (index : Nat) (s : Step) : Option Shot :=
  match s.action with
  | .screenshot name _ fullPage => some (plannedShot directory index name fullPage)
  | _ => none

/-- The screenshot of a step's capture, if its moment is this one. -/
def captureShot? (directory : Path) (index : Nat) (moment : Moment) (s : Step) : Option Shot :=
  (s.extras.capture.filter (·.moment = moment)).map fun c =>
    plannedShot directory index c.name c.fullPage

/-- The screenshots that a step plans, in their order. -/
def shots (directory : Path) (index : Nat) (s : Step) : List Shot :=
  (s.captureShot? directory index .before).toList ++ (s.actionShot? directory index).toList ++
    (s.captureShot? directory index .after).toList

/-- The screenshots that steps plan, from a place in the tour on. -/
def shotsFrom (directory : Path) : Nat → List Step → List Shot
  | _, [] => []
  | k, s :: steps => s.shots directory k ++ shotsFrom directory (k + 1) steps

/-- The step's action and its capture make screenshots of which the same is left in the names of
their files. -/
def SharesFile (s : Step) : Prop :=
  ∃ name label fullPage, s.action = .screenshot name label fullPage ∧
    ∃ c ∈ s.extras.capture, fileName c.name.toList = fileName name.toList

variable {directory : Path} {index : Nat} {s : Step}

/-- A step's capture is made at one of the two moments. -/
theorem shots_perm : (s.shots directory index).Perm
    ((s.actionShot? directory index).toList ++
      (s.extras.capture.map fun c => plannedShot directory index c.name c.fullPage).toList) := by
  unfold shots captureShot?
  rcases s.extras.capture with _ | ⟨moment, name, fullPage⟩
  · simp
  · cases moment with
    | before =>
      change ([plannedShot directory index name fullPage] ++ _ ++ []).Perm (_ ++ [_])
      rw [List.append_nil]
      exact List.perm_append_comm
    | after => exact .refl _

theorem mem_shots {x : Shot} : x ∈ s.shots directory index ↔
    (∃ name label fullPage, s.action = .screenshot name label fullPage ∧
      x = plannedShot directory index name fullPage) ∨
    ∃ c ∈ s.extras.capture, x = plannedShot directory index c.name c.fullPage := by
  rw [shots_perm.mem_iff, List.mem_append]
  refine or_congr ⟨fun h => ?_, ?_⟩ ⟨fun h => ?_, ?_⟩
  · unfold actionShot? at h
    split at h
    · next name label fullPage ha => exact ⟨name, label, fullPage, ha, by simpa using h⟩
    · cases h
  · rintro ⟨name, label, fullPage, ha, rfl⟩
    simp [actionShot?, ha]
  · obtain ⟨c, hc, rfl⟩ := Option.map_eq_some_iff.mp (Option.mem_toList.mp h)
    exact ⟨c, hc, rfl⟩
  · rintro ⟨c, hc, rfl⟩
    exact Option.mem_toList.mpr (Option.mem_map_of_mem _ hc)

theorem exists_of_mem_shots {x : Shot} (h : x ∈ s.shots directory index) :
    ∃ name fullPage, x = plannedShot directory index name fullPage := by
  obtain ⟨name, _, fullPage, -, rfl⟩ | ⟨c, -, rfl⟩ := mem_shots.mp h
  · exact ⟨name, fullPage, rfl⟩
  · exact ⟨c.name, c.fullPage, rfl⟩

theorem step_of_mem_shots {x : Shot} (h : x ∈ s.shots directory index) : x.step = index := by
  obtain ⟨name, fullPage, rfl⟩ := exists_of_mem_shots h
  rfl

theorem ne_empty_of_screenshot (hw : s.WellFormed) {name : String} {label : Option String}
    {fullPage : Option Bool} (ha : s.action = .screenshot name label fullPage) : name ≠ "" := by
  have hform := hw.1
  rw [ha] at hform
  rintro rfl
  have hnone : Pattern.shotName.admits "" = false := by decide
  exact absurd hform (by simp [ActionOf.WellFormed, hnone])

/-- The screenshots of a step that shares a file are in that file. -/
theorem SharesFile.alike (h : s.SharesFile) (hw : s.WellFormed) {x y : Shot}
    (hx : x ∈ s.shots directory index) (hy : y ∈ s.shots directory index) : x.path = y.path := by
  obtain ⟨name, label, fullPage, ha, c, hc, he⟩ := h
  have hname := ne_empty_of_screenshot hw ha
  have hpath {x : Shot} (hx : x ∈ s.shots directory index) :
      x.path = (plannedShot directory index name fullPage).path := by
    obtain ⟨name', label', fullPage', ha', rfl⟩ | ⟨c', hc', rfl⟩ := mem_shots.mp hx
    · rw [ha] at ha'
      cases ha'
      rfl
    · rw [hc] at hc'
      cases hc'
      exact (plannedShot_path_inj (hw.2.2.1 c hc) hname).mpr he
  rw [hpath hx, hpath hy]

theorem nodup_of_not_sharesFile (directory : Path) (index : Nat) (hw : s.WellFormed)
    (h : ¬s.SharesFile) : ((s.shots directory index).map (·.path)).Nodup := by
  rw [(shots_perm.map _).nodup_iff]
  unfold actionShot?
  split
  · next name label fullPage ha =>
    cases hc : s.extras.capture with
    | none => exact List.nodup_singleton _
    | some c =>
      refine List.nodup_cons.mpr ⟨fun hm => ?_, List.nodup_singleton _⟩
      have hname := ne_empty_of_screenshot hw ha
      have he := (plannedShot_path_inj hname (hw.2.2.1 c hc)).mp (List.mem_singleton.mp hm)
      exact h ⟨name, label, fullPage, ha, c, hc, he.symm⟩
  · cases s.extras.capture with
    | none => exact List.nodup_nil
    | some c => exact List.nodup_singleton _

/-- Those screenshots of a step that are made have files of their own, unless the step shares a
file and both of its screenshots are made. -/
theorem nodup_iff_of_sublist (hw : s.WellFormed) {l : List Shot}
    (hl : l.Sublist (s.shots directory index)) :
    (l.map (·.path)).Nodup ↔ (s.SharesFile → l.length ≤ 1) := by
  by_cases hshares : s.SharesFile
  · rw [forall_prop_of_true hshares]
    have halike (x y : Shot) (hx : x ∈ l) (hy : y ∈ l) : x.path = y.path :=
      hshares.alike hw (hl.subset hx) (hl.subset hy)
    constructor
    · intro hd
      rcases l with _ | ⟨x, _ | ⟨y, l⟩⟩
      · simp
      · simp
      · have hne : x.path ≠ y.path := by
          rw [List.map_cons, List.map_cons, List.nodup_cons] at hd
          exact fun h => hd.1 (h ▸ List.mem_cons_self)
        exact absurd (halike x y (by simp) (by simp)) hne
    · intro h
      rcases l with _ | ⟨x, _ | ⟨y, l⟩⟩
      · exact List.nodup_nil
      · exact List.nodup_singleton _
      · simp at h
  · have hall := nodup_of_not_sharesFile directory index hw hshares
    exact iff_of_true (hall.sublist (hl.map _)) fun h => absurd h hshares

theorem le_step_of_mem_shotsFrom {x : Shot} {k : Nat} {steps : List Step}
    (h : x ∈ shotsFrom directory k steps) : (k : Int) ≤ x.step := by
  induction steps generalizing k with
  | nil => cases h
  | cons s steps ih =>
    rcases List.mem_append.mp h with h | h
    · rw [step_of_mem_shots h]
    · have := ih h
      omega

theorem exists_of_mem_shotsFrom {x : Shot} {k : Nat} {steps : List Step}
    (h : x ∈ shotsFrom directory k steps) : ∃ i s, x ∈ shots directory i s := by
  induction steps generalizing k with
  | nil => cases h
  | cons s steps ih =>
    rcases List.mem_append.mp h with h | h
    · exact ⟨k, s, h⟩
    · exact ih h

/-- Screenshots of different steps do not share a file. -/
theorem step_eq_of_path_eq {x y : Shot} {i j : Nat} {s s' : Step} (hx : x ∈ s.shots directory i)
    (hy : y ∈ s'.shots directory j) (h : x.path = y.path) : i = j := by
  obtain ⟨m, f, rfl⟩ := exists_of_mem_shots hx
  obtain ⟨n, g, rfl⟩ := exists_of_mem_shots hy
  rw [plannedShot_path, plannedShot_path] at h
  exact (shotPath_text_inj h).1

/-- Those screenshots of some steps that are made have files of their own, unless one of the steps
shares a file and both of its screenshots are made. -/
theorem nodup_iff_of_sublist_shotsFrom {k : Nat} {steps : List Step}
    (hw : ∀ s ∈ steps, s.WellFormed) {l : List Shot}
    (hl : l.Sublist (shotsFrom directory k steps)) :
    (l.map (·.path)).Nodup ↔ ∀ i s, steps[i]? = some s → s.SharesFile →
      l.countP (Shot.isOf (k + i)) ≤ 1 := by
  induction steps generalizing k l with
  | nil =>
    rw [List.sublist_nil.mp hl]
    simp
  | cons s steps ih =>
    obtain ⟨own, rest, rfl, hown, hrest⟩ := List.sublist_append_iff.mp hl
    have hstep {x : Shot} (hx : x ∈ own) : x.step = k := step_of_mem_shots (hown.subset hx)
    have hlater {x : Shot} (hx : x ∈ rest) : ((k + 1 : Nat) : Int) ≤ x.step :=
      le_step_of_mem_shotsFrom (hrest.subset hx)
    have hapart : List.Disjoint (own.map (·.path)) (rest.map (·.path)) := by
      intro path hpx hpy
      obtain ⟨x, hx, rfl⟩ := List.mem_map.mp hpx
      obtain ⟨y, hy, he⟩ := List.mem_map.mp hpy
      obtain ⟨j, s', hj⟩ := exists_of_mem_shotsFrom (hrest.subset hy)
      have hjk : j = k := step_eq_of_path_eq hj (hown.subset hx) he
      have := hlater hy
      rw [step_of_mem_shots hj, hjk] at this
      omega
    have hfirst : (own ++ rest).countP (Shot.isOf k) = own.length := by
      have hall : own.countP (Shot.isOf k) = own.length := by
        rw [List.countP_eq_length]
        intro x hx
        simp [Shot.isOf, hstep hx]
      have hzero : rest.countP (Shot.isOf k) = 0 := by
        rw [List.countP_eq_zero]
        intro x hx
        have := hlater hx
        simp [Shot.isOf]
        omega
      rw [List.countP_append, hall, hzero, Nat.add_zero]
    have hnext (i : Nat) : (own ++ rest).countP (Shot.isOf (k + (i + 1))) =
        rest.countP (Shot.isOf (k + 1 + i)) := by
      have hzero : own.countP (Shot.isOf (k + (i + 1))) = 0 := by
        rw [List.countP_eq_zero]
        intro x hx
        simp [Shot.isOf, hstep hx]
        omega
      rw [List.countP_append, hzero, Nat.zero_add, Nat.add_right_comm k 1 i, Nat.add_assoc]
    rw [List.map_append, List.nodup_append', nodup_iff_of_sublist (hw s List.mem_cons_self) hown,
      ih (fun s hs => hw s (List.mem_cons_of_mem _ hs)) hrest]
    constructor
    · rintro ⟨h, h', -⟩ i s' hs hshares
      cases i with
      | zero =>
        cases hs
        rw [Nat.add_zero, hfirst]
        exact h hshares
      | succ i =>
        rw [hnext]
        exact h' i s' hs hshares
    · intro h
      refine ⟨fun hshares => ?_, fun i s' hs hshares => ?_, hapart⟩
      · rw [← hfirst]
        exact h 0 s rfl hshares
      · rw [← hnext]
        exact h (i + 1) s' hs hshares

end Step

namespace Run

/-- Work on files leaves every image as it was. -/
def KeepsImages {α : Type} (w : Filing α) : Prop :=
  ∀ fs directory i name image, fs.read (shotPath directory i name) = .ok image →
    (w fs).2.read (shotPath directory i name) = .ok image

namespace KeepsImages

variable {α β : Type} {w : Filing α} {f : α → Filing β} {file : Path} {name : String}

theorem bind (hw : KeepsImages w) (hf : ∀ x, KeepsImages (f x)) : KeepsImages (w >>= f) := by
  intro fs directory i n image h
  exact Attempt.bind_keeps (I := fun fs => fs.read (shotPath directory i n) = .ok image)
    (fun fs => hw fs directory i n image) (fun x fs => hf x fs directory i n image) fs h

theorem makeDirectories (p : Path) : KeepsImages (Filing.makeDirectories p) :=
  fun _ _ _ _ _ h => Filing.makeDirectories_read h

/-- A file that is not named like an image is not the file of one. -/
theorem ne_shotName (h : name.toList.getLast? ≠ some 'g') (i : Nat) (n : String) :
    shotName i n ≠ name := fun he => h (he ▸ getLast?_shotName i n)

variable (hn : file.parts.getLast? = some name) (hu : name ≠ "..")
  (hg : name.toList.getLast? ≠ some 'g')

include hn hu hg

theorem write (content : Text.Utf8.Bytes) : KeepsImages (Filing.write file content) := by
  intro fs directory i n image h
  obtain he | hgains := Filing.write_cases fs file content
  · rw [he, h]
  · exact hgains.read_of_ne hn hu (shotPath_name directory i n) (ne_shotName (by decide) i n)
      (ne_shotName hg i n) h

theorem append (content : Text.Utf8.Bytes) : KeepsImages (Filing.append file content) :=
  fun _ directory i n _ h => Filing.append_read_of_ne hn hu (shotPath_name directory i n)
    (ne_shotName (by decide) i n) (ne_shotName hg i n) content h

theorem writeText (text : String) : KeepsImages (Filing.writeText file text) :=
  bind (makeDirectories _) fun _ => write hn hu hg _

end KeepsImages

/-- The screenshots of a run are some of those that were planned, and the image of each is in its
file. -/
structure Gallery (directory : Path) (plan : List Shot) (fs : Store) (r : Result) : Prop where
  planned : r.shots.Sublist plan
  kept : ∀ s ∈ r.shots, s.path = (s.file directory).text ∧
    ∃ image, fs.read (s.file directory) = .ok image

theorem Gallery.more {directory : Path} {plan : List Shot} {fs : Store} {r : Result}
    (h : Gallery directory plan fs r) (more : List Shot) : Gallery directory (plan ++ more) fs r :=
  ⟨h.planned.trans (List.sublist_append_left plan more), h.kept⟩

/-- An image that is written may take the place of another, but leaves none without its file. -/
theorem read_of_write_shot {directory : Path} {fs : Store} {i j : Nat} {m n : String}
    {old : Text.Utf8.Bytes} (image : Text.Utf8.Bytes)
    (h : fs.read (shotPath directory i m) = .ok old) :
    ∃ image', (Filing.write (shotPath directory j n) image fs).2.read (shotPath directory i m) =
      .ok image' := by
  obtain he | hgains := Filing.write_cases fs (shotPath directory j n) image
  · exact ⟨old, by rw [he, h]⟩
  · by_cases hname : shotName i m = shotName j n
    · have hpath : shotPath directory i m = shotPath directory j n := by
        rw [shotPath_eq, shotPath_eq, hname]
      exact ⟨image, by rw [hpath]; exact hgains.read⟩
    · have hup (i : Nat) (n : String) : shotName i n ≠ ".." :=
        KeepsImages.ne_shotName (by decide) i n
      exact ⟨old, hgains.read_of_ne (shotPath_name directory j n) (hup j n)
        (shotPath_name directory i m) (hup i m) hname h⟩

namespace Player

variable {ε ι σ α : Type} {p : Player ι σ} {directory : Path} {plan : List Shot} {index : Nat}

theorem onScene_file_apply (w : Filing α) (cause : Fault → ε) (st : State σ) :
    onScene cause (Act.file w) st = (((w st.scene.files).1.mapError id).mapError cause,
      { st with scene := { st.scene with files := (w st.scene.files).2 } }) := rfl

theorem gallery_file {w : Filing α} {cause : Fault → ε} (hw : KeepsImages w) :
    Leaves (Gallery directory plan) (Gallery directory plan)
      (onScene cause (Act.file w) : Play ε σ α) := by
  refine .file fun fs r h => { h with kept := fun s hs => ?_ }
  obtain ⟨hpath, image, hread⟩ := h.kept s hs
  exact ⟨hpath, image, hw fs directory _ s.name image hread⟩

theorem gallery_update {g : Result → Result} (hg : ∀ r, (g r).shots = r.shots) :
    Leaves (Gallery directory plan) (Gallery directory plan) (Run.update g : Play ε σ Unit) := by
  refine .update fun fs r h => ⟨?_, ?_⟩
  · rw [hg]
    exact h.planned
  · rw [hg]
    exact h.kept

theorem gallery_keepShot (name : String) (fullPage : Option Bool) (image : Text.Utf8.Bytes) :
    Leaves (Gallery p.config.directory plan)
      (Gallery p.config.directory
        (plan ++ [plannedShot p.config.directory index name fullPage]))
      (p.keepShot index name ((fullPage.map .bool).getD (.bool true)) image) := by
  intro st
  have hold (h : Gallery p.config.directory plan st.scene.files st.result) :
      Gallery p.config.directory plan
        (Filing.write (shotPath p.config.directory index name) image st.scene.files).2
        st.result := by
    refine ⟨h.planned, fun s hs => ?_⟩
    obtain ⟨hpath, old, hread⟩ := h.kept s hs
    refine ⟨hpath, ?_⟩
    rw [Shot.file] at hread ⊢
    exact read_of_write_shot image hread
  unfold keepShot
  rw [Attempt.bind_apply, onScene_file_apply]
  rcases hw : Filing.write (shotPath p.config.directory index name) image st.scene.files with
    ⟨e | ⟨⟩, fs⟩
  · rw [hw] at hold
    exact ⟨List.prefix_rfl, fun h => (hold h).more _⟩
  · rw [hw] at hold
    refine ⟨List.prefix_append _ _, fun h => ?_⟩
    change Gallery p.config.directory _ fs { st.result with
      shots := st.result.shots ++ [plannedShot p.config.directory index name fullPage] }
    refine ⟨(hold h).planned.append (List.Sublist.refl _), fun s hs => ?_⟩
    rcases List.mem_append.mp hs with hs | hs
    · exact (hold h).kept s hs
    · rw [List.mem_singleton.mp hs, plannedShot_file]
      exact ⟨plannedShot_path _ _ _ _, image, (Filing.write_gains hw).read⟩

theorem gallery_shoot (name : String) (fullPage : Option Bool) :
    Leaves (Gallery p.config.directory plan)
      (Gallery p.config.directory
        (plan ++ [plannedShot p.config.directory index name fullPage]))
      (p.shoot index (.str name) (fullPage.map .bool)) := by
  rw [shoot_str]
  exact .still_bind (.ask _) (fun image => gallery_keepShot name fullPage image)
    fun _ _ h => h.more _

theorem gallery_capture (moment : Moment) (s : Step) :
    Leaves (Gallery p.config.directory plan)
      (Gallery p.config.directory
        (plan ++ (s.captureShot? p.config.directory index moment).toList))
      (p.capture index moment s.cue.extras.capture) := by
  have hcue : s.cue.extras.capture = s.extras.capture.map fun c =>
    ⟨.str c.moment.word, .str c.name, c.fullPage.map .bool⟩ := rfl
  rw [hcue]
  refine .capture (fun _ _ h => h.more _) fun c hc hmoment => ?_
  have hshot : s.captureShot? p.config.directory index moment =
      some (plannedShot p.config.directory index c.name c.fullPage) := by
    rw [Step.captureShot?, Option.mem_def.mp hc, Option.filter_some,
      if_pos (by simpa using hmoment)]
    rfl
  rw [hshot]
  exact gallery_shoot c.name c.fullPage

theorem gallery_queueMarkup (tourId label : String) (m : MarkupOf Json) :
    Leaves (Gallery directory plan) (Gallery directory plan)
      (p.queueMarkup tourId index label m) := by
  have hlast : (p.config.directory / "annotations.jsonl").parts.getLast? =
      some "annotations.jsonl" := Path.getLast?_join_name _ _ (by decide +kernel)
  have hjob (j : Job) : KeepsImages (j.append (p.config.directory / "annotations.jsonl")) :=
    .bind (.makeDirectories _) fun _ => .append hlast (by decide) (by decide) _
  exact .still_bind .refl (fun st => .bind (gallery_file (hjob _)) (fun _ => .bind_still
    (gallery_update fun _ => rfl) fun _ => .note _) fun _ _ h => h) fun _ _ h => h

theorem gallery_speak (text : Json) (source : SpokenBy) :
    Leaves (Gallery directory plan) (Gallery directory plan)
      (speak index text source : Play Stop σ Unit) := gallery_update fun _ => rfl

theorem gallery_perform (tourId : String) (s : Step) :
    Leaves (Gallery p.config.directory plan)
      (Gallery p.config.directory (plan ++ (s.actionShot? p.config.directory index).toList))
      (p.perform tourId index s.cue) := by
  have hmore (fs : Store) (r : Result) (h : Gallery p.config.directory plan fs r) :
      Gallery p.config.directory (plan ++ (s.actionShot? p.config.directory index).toList) fs r :=
    h.more _
  apply Leaves.perform hmore
  · exact fun text => (gallery_speak _ _).mono hmore
  · intro name label fullPage hs
    rw [Step.actionShot?, hs]
    exact gallery_shoot name fullPage
  · exact fun _ _ _ _ => (gallery_queueMarkup tourId _ _).mono hmore

theorem gallery_passes (tourId : String) (s : Step) :
    p.Passes tourId index s (Gallery p.config.directory plan)
      (Gallery p.config.directory
        (plan ++ (s.captureShot? p.config.directory index .before).toList))
      (Gallery p.config.directory
        (plan ++ (s.captureShot? p.config.directory index .before).toList ++
          (s.actionShot? p.config.directory index).toList))
      (Gallery p.config.directory (plan ++ s.shots p.config.directory index))
      (Gallery p.config.directory (plan ++ s.shots p.config.directory index)) where
  speak _ _ := gallery_speak _ _
  before := gallery_capture .before s
  action := gallery_perform tourId s
  after := by
    rw [Step.shots, ← List.append_assoc, ← List.append_assoc]
    exact gallery_capture .after s
  markup m := gallery_queueMarkup tourId _ _
  fail _ _ := gallery_update fun _ => rfl
  record _ _ := .still_bind (.now _) (fun _ => gallery_update fun _ => rfl) fun _ _ h => h
  first _ _ h := h.more _
  second _ _ h := h.more _
  third _ _ h := by
    rw [Step.shots, ← List.append_assoc, ← List.append_assoc]
    exact h.more _
  last _ _ h := h

theorem gallery_playCues (tourId : String) (k : Nat) (steps : List Step) :
    Leaves (Gallery p.config.directory plan)
      (Gallery p.config.directory (plan ++ Step.shotsFrom p.config.directory k steps))
      (p.playCues tourId k (steps.map Step.cue)) := by
  induction steps generalizing plan k with
  | nil => exact (Leaves.of_still (.pure ())).mono fun _ _ h => h.more _
  | cons s steps ih =>
    rw [Step.shotsFrom, ← List.append_assoc, List.map_cons, Player.playCues]
    refine .bind (gallery_passes tourId s).recordCue (fun goesOn => ?_) fun _ _ h => h.more _
    split_ifs
    · exact ih (k + 1)
    · exact (Leaves.of_still (.pure ())).mono fun _ _ h => h.more _

/-- Opening a run, and writing what came of it, does not touch the images. -/
theorem gallery_opening :
    Leaves (Gallery directory plan) (Gallery directory plan) p.opening := by
  have hlast : p.logFile.parts.getLast? = some "runlog.txt" :=
    Path.getLast?_join_name _ _ (by decide +kernel)
  have hstart : KeepsImages (RunLog.start p.logFile) :=
    .bind (.makeDirectories _) fun _ => .append hlast (by decide) (by decide) _
  exact .bind (gallery_file (.makeDirectories _)) (fun _ => gallery_file hstart) fun _ _ h => h

theorem gallery_finish :
    Leaves (Gallery directory plan) (Gallery directory plan) p.finish := by
  have hwrite (name text : String) (hn : Path.ofString name = ⟨"", [name]⟩) (hu : name ≠ "..")
      (hg : name.toList.getLast? ≠ some 'g') :
      KeepsImages (Filing.writeText (p.config.directory / name) text) :=
    .writeText (Path.getLast?_join_name _ _ hn) hu hg _
  have hresult (r : Result) : KeepsImages (r.write p.config.date p.config.directory) := by
    refine .bind (.bind (hwrite _ _ ?_ ?_ ?_) fun _ => hwrite _ _ ?_ ?_ ?_) fun _ =>
      .bind (hwrite _ _ ?_ ?_ ?_) fun _ => hwrite _ _ ?_ ?_ ?_
    all_goals decide +kernel
  exact .still_bind .refl (fun st => .bind_still (gallery_file (hresult _)) fun _ => .note _)
    fun _ _ h => h

theorem gallery_writeNotes :
    Leaves (Gallery directory plan) (Gallery directory plan) p.writeNotes := by
  have hlast : p.logFile.parts.getLast? = some "runlog.txt" :=
    Path.getLast?_join_name _ _ (by decide +kernel)
  have hlines (lines : List String) :
      KeepsImages (lines.forM (RunLog.append p.logFile p.config.date)) := by
    intro fs directory i n image h
    exact Attempt.forM_keeps (I := fun fs => fs.read (shotPath directory i n) = .ok image)
      (fun line fs => KeepsImages.append hlast (by decide) (by decide) _ fs directory i n image)
      lines fs h
  exact .still_bind .refl (fun st => gallery_file (hlines _)) fun _ _ h => h

/-- Whatever happens in a run, its screenshots are some of those that its steps planned. -/
theorem gallery_play (tourId : String) (steps : List Step) :
    Leaves (Gallery p.config.directory [])
      (Gallery p.config.directory (Step.shotsFrom p.config.directory 0 steps))
      (p.play tourId (steps.map Step.cue)) := by
  have hsteps : Leaves (Gallery p.config.directory [])
      (Gallery p.config.directory (Step.shotsFrom p.config.directory 0 steps))
      (p.playCues tourId 0 (steps.map Step.cue)) := gallery_playCues tourId 0 steps
  have hmore (fs : Store) (r : Result) (h : Gallery p.config.directory [] fs r) :
      Gallery p.config.directory (Step.shotsFrom p.config.directory 0 steps) fs r := h.more _
  rw [play_eq]
  refine .bind gallery_opening (fun _ => .thenAlways (.still_bind (.note _) (fun _ => .thenAlways
    (.still_bind ?_ (fun _ => hsteps) hmore) gallery_finish) hmore) gallery_writeNotes) hmore
  exact .act _ fun _ => rfl

/-- The screenshots of a run of a tour that was loaded. Each has its image in its file when the run
ends; and no two have the same file unless a step shares one and made both of its screenshots. -/
theorem run_shots {v : Json} {t : Tour} (p : Player ι σ) (sc : Scene σ)
    (ht : Tour.ofJson v = .ok t) :
    let r := (p.play t.id t.cues (.fresh t.id sc)).2.result
    let fs := (p.run t sc).2.files
    (∀ r', (p.run t sc).1 = .ok r' → r' = r) ∧
    r.shots.Sublist (Step.shotsFrom p.config.directory 0 t.steps) ∧
    (∀ s ∈ r.shots, s.path = (s.file p.config.directory).text ∧
      ∃ image, fs.read (s.file p.config.directory) = .ok image) ∧
    ((r.shots.map (·.path)).Nodup ↔ ∀ i s, t.steps[i]? = some s → s.SharesFile →
      r.shots.countP (Shot.isOf i) ≤ 1) := by
  intro r fs
  have hgallery : Gallery p.config.directory (Step.shotsFrom p.config.directory 0 t.steps) fs r :=
    (gallery_play t.id t.steps (.fresh t.id sc)).2 ⟨List.nil_sublist _, by simp [State.fresh]⟩
  have hw (s : Step) (hs : s ∈ t.steps) : s.WellFormed := Tour.wellFormed_of_ofJson ht s hs
  have hnodup := Step.nodup_iff_of_sublist_shotsFrom hw hgallery.planned
  simp only [Nat.zero_add] at hnodup
  exact ⟨fun r' h => (p.run_eq_ok h).2, hgallery.planned, hgallery.kept, hnodup⟩

/-- A screenshot takes the place of the one that was made before it under the same name. -/
theorem run_shots_home_twice :
    let v : Json := .obj [("tourId", .str "demo"), ("steps", .arr [.obj [
      ("type", .str "screenshot"), ("name", .str "home"),
      ("capture", .obj [("when", .str "before"), ("name", .str "home")])]])]
    let t : Tour := ⟨"demo", none, [⟨.screenshot "home" none none,
      { capture := some ⟨.before, "home", none⟩ }⟩]⟩
    let refuse (_ : PageCall) : Option Fault := none
    let p : Player Int (List Called) := ⟨.refusing refuse 0, .exact,
      { baseUrl := "http://app.test", routes := [], directory := "run", date := "2026-01-01" }⟩
    let sc : Scene (List Called) := { page := [] }
    let r := (p.play t.id t.cues (.fresh t.id sc)).2.result
    Tour.ofJson v = .ok t ∧ (p.run t sc).1.toOption = some r ∧
      r.shots.map (·.path) = ["run/screens/000_home.png", "run/screens/000_home.png"] ∧
      ¬(r.shots.map (·.path)).Nodup := by
  intro v t refuse p sc r
  have ht : Tour.ofJson v = .ok t := ok_of_toOption (by decide +kernel)
  obtain ⟨-, -, -, hnodup⟩ := p.run_shots sc ht
  have hshares : Step.SharesFile ⟨.screenshot "home" none none,
      { capture := some ⟨.before, "home", none⟩ }⟩ :=
    ⟨"home", none, none, rfl, ⟨.before, "home", none⟩, rfl, rfl⟩
  refine ⟨ht, by decide +kernel, by decide +kernel, fun h => ?_⟩
  have hone := hnodup.mp h 0 _ rfl hshares
  exact absurd hone (by decide +kernel)

end Player

end Run

end Walkthrough
