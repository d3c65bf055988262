import Walkthrough.Proofs.Doctor.Reports
import Walkthrough.Proofs.Reference
import Walkthrough.Proofs.TourMap
/-!
What is loaded of a project: its vocabulary out of two files and its map out of a third. A
vocabulary is loaded exactly from two documents of the right form, and it is theirs item by item; a
map from one. Every other file is a fault of the configuration, unless it cannot be told what it
holds: its bytes spell no text, a whole number in it is too long, or it is nested too deep.
-/

namespace Walkthrough

open Doctor (Followed Holds Judgeable Legible)

/-- Some items are there under a key, each of a format. -/
theorem Schema.items_of_accepts {keys : List String} {props : List (String × Schema)} {v : Json}
    {key : String} {F : Schema}
    (h : (rules [.kind .object, .required keys, .properties props]).accepts v = true)
    (hkey : key ∈ keys) (hF : (key, rules [.kind .array, .items F]) ∈ props) :
    ∃ vs, v.get? key = some (.arr vs) ∧ ∀ w ∈ vs, F.accepts w = true := by
  obtain ⟨w, hw⟩ := Option.isSome_iff_exists.mp
    (accepts_required h List.mem_cons_self (List.mem_cons_of_mem _ List.mem_cons_self) hkey)
  have hform := accepts_member h
    (List.mem_cons_of_mem _ (List.mem_cons_of_mem _ List.mem_cons_self)) hF
  rw [hw, Option.all_some] at hform
  cases w with
  | arr vs => exact ⟨vs, hw, accepts_item hform (List.mem_cons_of_mem _ List.mem_cons_self)⟩
  | _ =>
    rw [accepts_rules, List.all_cons] at hform
    cases hform

/-- Where each key stands once, the path of a key is that of the route with it. -/
theorem Route.pathOf?_eq_some_iff {rs : List Route} (h : (rs.map (·.key)).Nodup)
    {key path : String} : pathOf? rs key = some path ↔ ⟨key, path⟩ ∈ rs := by
  rw [pathOf?, Option.map_eq_some_iff]
  constructor
  · rintro ⟨r, hr, rfl⟩
    have hkey : r.key = key := by simpa using List.find?_some hr
    rw [← hkey]
    exact List.mem_reverse.mp (List.mem_of_find?_eq_some hr)
  · intro hmem
    have hthere : (rs.reverse.find? (·.key == key)).isSome := by
      rw [List.find?_isSome]
      exact ⟨⟨key, path⟩, List.mem_reverse.mpr hmem, by simp⟩
    obtain ⟨r, hr⟩ := Option.isSome_iff_exists.mp hthere
    have hkey : r.key = key := by simpa using List.find?_some hr
    have hin : r ∈ rs := List.mem_reverse.mp (List.mem_of_find?_eq_some hr)
    have hsame : r = ⟨key, path⟩ := List.inj_on_of_nodup_map h hin hmem hkey
    exact ⟨r, hr, by rw [hsame]⟩

namespace Vocabulary

/-- There is nothing to be read at a path. -/
def Missing (st : Store) (file : Path) : Prop := ∃ p, st.read file = .error ⟨.absent, p⟩

/-- A file is missing, or it can be told what it holds. -/
def Told (st : Store) (file : Path) : Prop := Missing st file ∨ Legible st file

/-- A vocabulary is the one of two documents of the right form: it has their routes and events in
order, no two routes of it have one key, and its login page is the one that they name, if they
do. -/
structure IsOf (v : Vocabulary) (routesFile eventsFile : Json) : Prop where
  routesForm : routesFormat.accepts routesFile = true
  eventsForm : eventsFormat.accepts eventsFile = true
  routes : ∃ rs, routesFile.get? "routes" = some (.arr rs) ∧
    rs.map (fun r => (r.get? "routeKey", r.get? "path")) =
      v.routes.map fun r => (some (.str r.key), some (.str r.path))
  events : ∃ es, eventsFile.get? "events" = some (.arr es) ∧
    es.map (·.get? "name") = v.events.map fun name => some (.str name)
  login : routesFile.get? "authRouteKey" = some (.str v.authKey) ∨
    routesFile.get? "authRouteKey" = none ∧ v.authKey = "auth"
  nodup : v.routeKeys.Nodup

/-- What is taken out of two documents. -/
def ofDocuments (routesFile eventsFile : Json) : Vocabulary :=
  ⟨(list routesFile "routes").map fun r => Route.mk (text r "routeKey") (text r "path"),
    (list eventsFile "events").map (text · "name"),
    ((routesFile.get? "authRouteKey").bind Json.str?).getD "auth"⟩

variable {st : Store} {file directory : Path} {format : Schema}
  {routesFile eventsFile : Json} {v : Vocabulary}

/-- Two documents are those of one vocabulary at most, the one that is taken out of them. -/
theorem IsOf.eq (h : v.IsOf routesFile eventsFile) : v = ofDocuments routesFile eventsFile := by
  obtain ⟨rs, hrs, hroutes⟩ := h.routes
  obtain ⟨es, hes, hevents⟩ := h.events
  have hroutes' : (list routesFile "routes").map
      (fun r => Route.mk (text r "routeKey") (text r "path")) = v.routes := by
    have htaken := congrArg (List.map fun p : Option Json × Option Json =>
      Route.mk ((p.1.bind Json.str?).getD "") ((p.2.bind Json.str?).getD "")) hroutes
    rw [List.map_map, List.map_map] at htaken
    rw [list, hrs]
    exact htaken.trans (List.map_id _)
  have hevents' : (list eventsFile "events").map (text · "name") = v.events := by
    have htaken := congrArg (List.map fun o : Option Json => (o.bind Json.str?).getD "") hevents
    rw [List.map_map, List.map_map] at htaken
    rw [list, hes]
    exact htaken.trans (List.map_id _)
  have hlogin : ((routesFile.get? "authRouteKey").bind Json.str?).getD "auth" = v.authKey := by
    rcases h.login with hthere | ⟨hmissing, hauth⟩
    · rw [hthere]
      rfl
    · rw [hmissing, hauth]
      rfl
  rw [ofDocuments, hroutes', hevents', hlogin]

/-- What is taken out of two documents of the right form is theirs. -/
theorem isOf_ofDocuments (hr : routesFormat.accepts routesFile = true)
    (he : eventsFormat.accepts eventsFile = true)
    (hd : (ofDocuments routesFile eventsFile).routeKeys.Nodup) :
    (ofDocuments routesFile eventsFile).IsOf routesFile eventsFile := by
  obtain ⟨rs, hrs, hroutes⟩ := Schema.items_of_accepts hr List.mem_cons_self List.mem_cons_self
  obtain ⟨es, hes, hevents⟩ := Schema.items_of_accepts he List.mem_cons_self List.mem_cons_self
  have htext {r : Json} {keys : List String} {props : List (String × Schema)} {key : String}
      {F : Schema} {P : String → Prop} (hF : F.Takes Json.str P)
      (h : (Schema.rules [.kind .object, .required keys, .properties props]).accepts r = true)
      (hkey : key ∈ keys) (hmem : (key, F) ∈ props) : r.get? key = some (.str (text r key)) := by
    obtain ⟨t, ht, -⟩ := hF.get?_of_isSome
      (Schema.accepts_required h List.mem_cons_self
        (List.mem_cons_of_mem _ List.mem_cons_self) hkey)
      (Schema.accepts_member h
        (List.mem_cons_of_mem _ (List.mem_cons_of_mem _ List.mem_cons_self)) hmem)
    rw [text, ht]
    rfl
  refine ⟨hr, he, ⟨rs, hrs, ?_⟩, ⟨es, hes, ?_⟩, ?_, hd⟩
  · simp only [ofDocuments, list, hrs, List.map_map]
    refine List.map_congr_left fun r hmem => ?_
    have hkey := htext Tour.fullTextFormat_takes (hroutes r hmem) List.mem_cons_self
      List.mem_cons_self
    have hpath := htext (Tour.formFormat_takes .rooted) (hroutes r hmem)
      (List.mem_cons_of_mem _ List.mem_cons_self) (List.mem_cons_of_mem _ List.mem_cons_self)
    rw [hkey, hpath]
    rfl
  · simp only [ofDocuments, list, hes, List.map_map]
    exact List.map_congr_left fun e hmem =>
      htext Tour.fullTextFormat_takes (hevents e hmem) List.mem_cons_self List.mem_cons_self
  · have hform := Schema.accepts_member (k := "authRouteKey") hr
      (List.mem_cons_of_mem _ (List.mem_cons_of_mem _ List.mem_cons_self))
      (List.mem_cons_of_mem _ List.mem_cons_self)
    obtain ⟨o, ho, -⟩ := Tour.textFormat_takes.get? hform
    cases o with
    | none => exact .inr ⟨ho, by simp [ofDocuments, ho]⟩
    | some t =>
      refine .inl ?_
      simp only [ofDocuments, ho]
      rfl

theorem repeated?_of_nodup {seen ts : List String} (h : ts.Nodup) (hs : ∀ t ∈ ts, t ∉ seen) :
    repeated? seen ts = none := by
  induction ts generalizing seen with
  | nil => rfl
  | cons t ts ih =>
    rw [List.nodup_cons] at h
    rw [List.forall_mem_cons] at hs
    rw [repeated?, if_neg (by simpa using hs.1)]
    refine ih h.2 fun u hu hseen => ?_
    rcases List.mem_cons.mp hseen with rfl | hseen
    · exact h.1 hu
    · exact hs.2 u hu hseen

/-- A file of a vocabulary that is there is read as a document. -/
theorem readFile_eq (hthere : ¬Missing st file) :
    readFile st file format = match readJson st file with
      | .ok v => (match format.complaint? v with
        | some c => .error (.config (.badShape file c))
        | none => .ok v)
      | .error (.json (.malformed c l k i)) => .error (.config (.notJson file (.malformed c l k i)))
      | .error f => .error f := by
  unfold readFile readJson
  rcases ht : readText st file with f | text
  · rcases readText_fault ht with ⟨⟨cause, p⟩, hread, rfl⟩ | ⟨g, rfl⟩
    · cases cause with
      | absent => exact absurd ⟨p, hread⟩ hthere
      | _ => rfl
    · rfl
  · simp only [Except.mapError, ok_bind]
    rcases Json.read text with (⟨c, l, k, i⟩ | r) | v
    · rfl
    · rfl
    · cases hc : format.complaint? v <;> simp only [hc]

theorem readFile_of_missing (h : Missing st file) :
    readFile st file format = .error (.config (.missing file)) := by
  obtain ⟨p, hp⟩ := h
  rw [readFile, readText, hp]
  rfl

/-- A file of a vocabulary holds a document of its form; or it does not, which is a fault of the
configuration; or it cannot be told what it holds, which is a fault of another kind. -/
theorem readFile_cases (hfollowed : Followed st file) (format : Schema) :
    (Told st file ∧ ∃ v, readJson st file = .ok v ∧ format.accepts v = true ∧
      readFile st file format = .ok v) ∨
    (Told st file ∧ ¬Holds st file format ∧ ∃ c, readFile st file format = .error (.config c)) ∨
    (¬Told st file ∧ ¬Holds st file format ∧ ∃ f, readFile st file format = .error f ∧
      ∀ c, f ≠ .config c) := by
  by_cases hm : Missing st file
  · refine .inr (.inl ⟨.inl hm, ?_, _, readFile_of_missing hm⟩)
    rintro ⟨v, hv, -⟩
    obtain ⟨p, hp⟩ := hm
    rw [readJson, readText, hp] at hv
    cases hv
  rw [readFile_eq hm]
  obtain ⟨hl, v, hv⟩ | ⟨hl, c, l, k, i, hj⟩ | ⟨hl, f, hf, hkind⟩ := Doctor.readJson_cases hfollowed
  · rw [hv]
    rcases hc : format.complaint? v with _ | c
    · exact .inl ⟨.inr hl, v, rfl, (Schema.complaint?_eq_none_iff format v).mp hc, by
        simp only [hc]⟩
    · refine .inr (.inl ⟨.inr hl, fun hholds => ?_, .badShape file c, by simp only [hc]⟩)
      rw [Doctor.holds_iff hv, ← Schema.complaint?_eq_none_iff, hc] at hholds
      cases hholds
  · rw [hj]
    exact .inr (.inl ⟨.inr hl, Doctor.not_holds hj, _, rfl⟩)
  · rw [hf]
    refine .inr (.inr ⟨not_or.mpr ⟨hm, hl⟩, Doctor.not_holds hf, f, ?_⟩)
    obtain ⟨g, rfl⟩ | ⟨g, rfl⟩ | ⟨r, rfl⟩ := hkind
    · exact ⟨rfl, by simp⟩
    · exact ⟨rfl, by simp⟩
    · exact ⟨rfl, by simp⟩

theorem load_of_readFile
    (hr : readFile st (directory / "routes.json") routesFormat = .ok routesFile)
    (he : readFile st (directory / "events.json") eventsFormat = .ok eventsFile) :
    load st directory = match repeated? [] (ofDocuments routesFile eventsFile).routeKeys with
      | some key => .error (.config (.repeatedRoute key))
      | none => .ok (ofDocuments routesFile eventsFile) := by
  rw [load, hr, ok_bind, he, ok_bind]
  rfl

section

variable (hroutes : Followed st (directory / "routes.json"))
  (hevents : Followed st (directory / "events.json"))

include hroutes hevents

/-- A vocabulary is loaded exactly where it is the one of the documents in its two files. -/
theorem load_eq_ok_iff : load st directory = .ok v ↔ ∃ routesFile eventsFile,
    readJson st (directory / "routes.json") = .ok routesFile ∧
    readJson st (directory / "events.json") = .ok eventsFile ∧ v.IsOf routesFile eventsFile := by
  constructor
  · intro h
    obtain ⟨-, rf, hrf, hra, hr⟩ | ⟨-, -, c, hr⟩ | ⟨-, -, f, hr, -⟩ :=
      readFile_cases hroutes routesFormat
    case inr.inl | inr.inr =>
      rw [load, hr] at h
      cases h
    obtain ⟨-, ef, hef, hea, he⟩ | ⟨-, -, c, he⟩ | ⟨-, -, f, he, -⟩ :=
      readFile_cases hevents eventsFormat
    case inr.inl | inr.inr =>
      rw [load, hr, ok_bind, he] at h
      cases h
    rw [load_of_readFile hr he] at h
    split at h
    · cases h
    · next hnone =>
      cases h
      exact ⟨rf, ef, hrf, hef, isOf_ofDocuments hra hea (nodup_of_repeated? hnone).1⟩
  · rintro ⟨rf, ef, hrf, hef, hv⟩
    have hdoc {file : Path} {format : Schema} {w : Json} (hf : Followed st file)
        (hw : readJson st file = .ok w) (ha : format.accepts w = true) :
        readFile st file format = .ok w := by
      obtain ⟨-, w', hw', -, h⟩ | ⟨-, hno, -⟩ | ⟨-, hno, -⟩ := readFile_cases hf format
      · rw [hw] at hw'
        cases hw'
        exact h
      · exact absurd ⟨w, hw, ha⟩ hno
      · exact absurd ⟨w, hw, ha⟩ hno
    have hnone : repeated? [] v.routeKeys = none := repeated?_of_nodup hv.nodup (by simp)
    rw [load_of_readFile (hdoc hroutes hrf hv.routesForm) (hdoc hevents hef hv.eventsForm), ← hv.eq,
      hnone]

/-- A vocabulary is loaded or ill configured, unless it cannot be told what the file of its routes
holds, or that of its events where the other one is well. -/
theorem load_configured_iff :
    ((∃ v, load st directory = .ok v) ∨ ∃ c, load st directory = .error (.config c)) ↔
      Told st (directory / "routes.json") ∧
        (Holds st (directory / "routes.json") routesFormat →
          Told st (directory / "events.json")) := by
  obtain ⟨htr, rf, hrf, hra, hr⟩ | ⟨htr, hno, c, hr⟩ | ⟨htr, -, f, hr, hf⟩ :=
    readFile_cases hroutes routesFormat
  case inr.inl =>
    have hload : load st directory = .error (.config c) := by rw [load, hr]; rfl
    exact iff_of_true (.inr ⟨c, hload⟩) ⟨htr, fun hh => absurd hh hno⟩
  case inr.inr =>
    have hload : load st directory = .error f := by rw [load, hr]; rfl
    refine iff_of_false ?_ fun h => htr h.1
    rw [hload]
    rintro (⟨v, ⟨⟩⟩ | ⟨c, hc⟩)
    exact hf c (Except.error.inj hc)
  obtain ⟨hte, ef, hef, hea, he⟩ | ⟨hte, -, c, he⟩ | ⟨hte, -, f, he, hf⟩ :=
    readFile_cases hevents eventsFormat
  case inl =>
    refine iff_of_true ?_ ⟨htr, fun _ => hte⟩
    rw [load_of_readFile hr he]
    cases repeated? [] (ofDocuments rf ef).routeKeys with
    | none => exact .inl ⟨_, rfl⟩
    | some key => exact .inr ⟨_, rfl⟩
  case inr.inl =>
    have hload : load st directory = .error (.config c) := by rw [load, hr, ok_bind, he]; rfl
    exact iff_of_true (.inr ⟨c, hload⟩) ⟨htr, fun _ => hte⟩
  case inr.inr =>
    have hload : load st directory = .error f := by rw [load, hr, ok_bind, he]; rfl
    refine iff_of_false ?_ fun h => hte (h.2 ⟨rf, hrf, hra⟩)
    rw [hload]
    rintro (⟨v, ⟨⟩⟩ | ⟨c, hc⟩)
    exact hf c (Except.error.inj hc)

end

end Vocabulary

namespace TourMap

variable {st : Store} {file : Path} (hfollowed : Followed st file)

include hfollowed

/-- A map is loaded, or found missing or ill configured, unless it cannot be told what its file
holds. -/
theorem load_configured_iff :
    ((∃ m, load st file = .ok m) ∨ ∃ c, load st file = .error (.config c)) ↔ Judgeable st file := by
  obtain ⟨hh, hload⟩ | ⟨-, hl, v, m, -, -, -, hload⟩ | ⟨-, hl, -, c, hload⟩ | ⟨hj, f, hload, hf⟩ :=
    Doctor.load_cases hfollowed
  · exact iff_of_true (.inl ⟨none, hload⟩) (.inl hh)
  · exact iff_of_true (.inl ⟨some m, hload⟩) (.inr hl)
  · exact iff_of_true (.inr ⟨c, hload⟩) (.inr hl)
  · refine iff_of_false ?_ hj
    rw [hload]
    rintro (⟨m, ⟨⟩⟩ | ⟨c, hc⟩)
    exact hf c (Except.error.inj hc)

theorem load_eq_none_iff : load st file = .ok none ↔ st.has file = .ok false := by
  obtain ⟨hh, hload⟩ | ⟨hh, -, v, m, -, -, -, hload⟩ | ⟨hh, -, -, c, hload⟩ | ⟨hj, f, hload, -⟩ :=
    Doctor.load_cases hfollowed
  · exact iff_of_true hload hh
  · rw [hload, hh]
    simp
  · rw [hload, hh]
    simp
  · rw [hload]
    exact iff_of_false (by simp) fun hh => hj (.inl hh)

/-- A map is loaded exactly from a document of its form, and is the one that the document says. -/
theorem load_eq_some_iff {m : TourMap} :
    load st file = .ok (some m) ↔
      ∃ v, readJson st file = .ok v ∧ format.accepts v = true ∧ ofJson? v = some m := by
  have hnone (hno : ¬Holds st file format) :
      ¬∃ v, readJson st file = .ok v ∧ format.accepts v = true ∧ ofJson? v = some m :=
    fun ⟨v, hv, ha, _⟩ => hno ⟨v, hv, ha⟩
  obtain ⟨hh, hload⟩ | ⟨-, -, v, m', hv, ha, hm', hload⟩ | ⟨-, -, hno, c, hload⟩ |
    ⟨hj, f, hload, -⟩ := Doctor.load_cases hfollowed
  · rw [hload]
    exact iff_of_false (by simp) (hnone (Doctor.not_holds_of_missing hh))
  · rw [hload]
    constructor
    · rintro ⟨⟩
      exact ⟨v, hv, ha, hm'⟩
    · rintro ⟨w, hw, -, hm⟩
      rw [hv] at hw
      cases hw
      rw [← hm, hm']
  · rw [hload]
    exact iff_of_false (by simp) (hnone hno)
  · rw [hload]
    refine iff_of_false (by simp) ?_
    rintro ⟨v, hv, -⟩
    obtain ⟨hl, -⟩ | ⟨hl, -⟩ | ⟨-, g, hg, -⟩ := Doctor.readJson_cases hfollowed
    · exact hj (.inr hl)
    · exact hj (.inr hl)
    · rw [hv] at hg
      cases hg

end TourMap

namespace Vocabulary

end Vocabulary

end Walkthrough
