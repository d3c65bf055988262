import Walkthrough.Layout
import Walkthrough.Proofs.Files
import Walkthrough.Proofs.Json.RoundTrip
import Walkthrough.Proofs.TourMap
import Walkthrough.TourMap.Document
/-!
Tour maps in their files: what is written for a map is loaded as that map, its routes in their order
and each reason there only where it was given.
-/

namespace Walkthrough.TourMap

theorem accepts_str (s : String) : (Schema.rules [.kind .string]).accepts (.str s) = true :=
  (Tour.textFormat_takes (.str s)).mpr ⟨s, rfl, trivial⟩

theorem accepts_strs (ss : List String) :
    (Schema.rules [.kind .array, .items (.rules [.kind .string])]).accepts (.strs ss) = true := by
  rw [Schema.accepts_rules]
  simp [Rule.holds, JsonKind.admits, Json.strs, accepts_str]

theorem plain_strs {room : Nat} (ss : List String) : (Json.strs ss).Plain (room + 1) := by
  change Json.PlainItems room _
  simp [Json.plainItems_iff]

theorem strs?_strs (ss : List String) : (Json.strs ss).strs? = some ss := by
  change (ss.map Json.str).mapM Json.str? = some ss
  exact mapM_list_map (m := Option) (f := Json.str) (g := Json.str?) (fun _ => rfl) ss

variable (e : MapEntry) (m : TourMap)

theorem plain_entryJson {room : Nat} : (entryJson e).Plain (room + 2) := by
  obtain ⟨path, anchors, skipped⟩ := e
  cases skipped <;> simp [entryJson, Json.Plain, Json.PlainMembers, plain_strs]

theorem accepts_entryJson : entryFormat.accepts (entryJson e) = true := by
  obtain ⟨path, anchors, skipped⟩ := e
  rw [entryFormat, Schema.accepts_rules]
  cases skipped <;>
    simp [entryJson, Rule.holds, JsonKind.admits, Json.Members.get?, List.lookup_cons, accepts_str,
      accepts_strs]

/-- An entry is read out of its document, with a reason exactly if it has one. -/
theorem entryOf?_entryJson : entryOf? (entryJson e) = some e := by
  obtain ⟨path, anchors, skipped⟩ := e
  cases skipped <;>
    simp [entryOf?, entryJson, text?, texts?, Json.get?, Json.Members.get?, List.lookup_cons,
      strs?_strs, Json.str?]

theorem plain_toJson {room : Nat} (h : (m.routes.map (·.1)).Nodup) :
    m.toJson.Plain (room + 4) := by
  have hroutes : (Json.obj (m.routes.map fun r => (r.1, entryJson r.2))).Plain (room + 3) := by
    refine ⟨?_, Json.plainMembers_iff.mpr ?_⟩
    · rwa [List.map_map]
    · exact List.forall_mem_map.mpr fun r _ => plain_entryJson r.2
  exact ⟨by simp, trivial, hroutes, plain_strs m.events, trivial⟩

/-- The document of a map has the format of maps. -/
theorem accepts_toJson : format.accepts m.toJson = true := by
  have hroutes : (Schema.rules [.kind .object, .additional [] (some entryFormat)]).accepts
      (.obj (m.routes.map fun r => (r.1, entryJson r.2))) = true := by
    rw [Schema.accepts_rules]
    simp [Rule.holds, JsonKind.admits, accepts_entryJson]
  rw [entryFormat] at hroutes
  rw [format, Schema.accepts_rules]
  simp [toJson, Rule.holds, JsonKind.admits, Json.Members.get?, List.lookup_cons, hroutes,
    accepts_str, accepts_strs]

/-- A map is read out of its document. -/
theorem ofJson?_toJson : ofJson? m.toJson = some m := by
  have hthere : m.toJson.get? "routes" =
      some (.obj (m.routes.map fun r => (r.1, entryJson r.2))) := rfl
  have hroutes : (m.routes.map fun r => (r.1, entryJson r.2)).mapM
      (fun r => (entryOf? r.2).map (r.1, ·)) = some m.routes :=
    mapM_list_map (m := Option) (fun r => by rw [entryOf?_entryJson]; rfl) m.routes
  have hevents : texts? m.toJson "events" = some m.events := strs?_strs m.events
  simp only [ofJson?, hthere, hroutes, hevents]
  rfl

variable {m}

/-- A file that holds a map's document is loaded as the map. -/
theorem load_of_read {st : Store} {file : Path} (h : (m.routes.map (·.1)).Nodup)
    (hr : st.read file = .ok (Text.Utf8.encode (m.toJson.pretty ++ "\n").toList)) :
    load st file = .ok (some m) := by
  have hp : m.toJson.Plain Json.roomAlways := plain_toJson m h
  have hf := (Schema.complaint?_eq_none_iff format m.toJson).mpr (accepts_toJson m)
  simp only [load, Store.has_of_read hr, readText_of_read (Json.not_mem_pretty hp) hr,
    Json.read_pretty hp, hf, ofJson?_toJson, Except.mapError, ok_bind]
  rfl

/-- A map that is written is loaded again, unless its document for readers takes the place of the
other: whatever its keys, paths, anchors, reasons and events are. -/
theorem load_written {st st' : Store} {json markdown : Path} (h : (m.routes.map (·.1)).Nodup)
    (hw : m.write json markdown st = (.ok (), st'))
    (hne : st'.locate json ≠ st'.locate markdown) : load st' json = .ok (some m) := by
  obtain ⟨⟨⟩, st₁, hj, hm⟩ := Attempt.bind_eq_ok.mp hw
  exact load_of_read h (Filing.writeText_read_of_locate_ne hm hne (Filing.writeText_read hj))

theorem load_written_strange :
    let m : TourMap := ⟨"", [("", ⟨"/", ["tour.a.\"b\".c", "tour.\r\n", "tour.\x00"], none⟩),
      (staticKey, ⟨staticPath, [], some ""⟩),
      ("é\u2028", ⟨"\\", [], some "net::ERR \t\x7b"⟩)], ["e", "e"]⟩
    let l : Layout := ⟨"."⟩
    (m.routes.map (·.1)).Nodup ∧
    ∃ st, m.write l.mapJson l.mapDocument Store.empty = (.ok (), st) ∧
      st.locate l.mapJson ≠ st.locate l.mapDocument ∧ load st l.mapJson = .ok (some m) := by
  intro m l
  have hn : (m.routes.map (·.1)).Nodup := by decide
  have hw : (m.write l.mapJson l.mapDocument Store.empty).1 = .ok () :=
    ok_of_toOption (by decide +kernel)
  have hne : (m.write l.mapJson l.mapDocument Store.empty).2.locate l.mapJson ≠
      (m.write l.mapJson l.mapDocument Store.empty).2.locate l.mapDocument := fun h =>
    absurd (congrArg Except.toOption h) (by decide +kernel)
  exact ⟨hn, _, Prod.ext hw rfl, hne, load_written hn (Prod.ext hw rfl) hne⟩

end Walkthrough.TourMap
