import Walkthrough.Proofs.Crawl.Isolation
import Walkthrough.Proofs.Reference
/-!
The scan's entry in the map of a crawl. It stands under a key that a route may have as well; the map
keeps it exactly if none has.
-/

namespace Walkthrough

namespace Crawl

variable {ι σ : Type} {c : Crawl ι σ} {auth : Option String} {loggedIn : Bool} {rs : List Route}
  {es es' : List (String × MapEntry)} {sc sc' : Scene σ}

/-- Visits put the entry of each route under its key and leave what is under other keys. -/
theorem lookup_routes (hd : (rs.map (·.key)).Nodup)
    (h : c.routes auth loggedIn rs es sc = (.ok es', sc')) :
    (∀ key ∉ rs.map (·.key), es'.lookup key = es.lookup key) ∧
      ∀ before r rest, rs = before ++ r :: rest → ∃ e,
        (c.route auth loggedIn r (c.after auth loggedIn before sc)).1 = .ok e ∧
        es'.lookup r.key = some e := by
  induction rs generalizing es sc with
  | nil =>
    cases h
    exact ⟨fun _ _ => rfl, fun before r rest hrs => by simp at hrs⟩
  | cons r rs ih =>
    rw [routes] at h
    obtain ⟨e, sc₁, he, h⟩ := Attempt.bind_eq_ok.mp h
    rw [List.map_cons, List.nodup_cons] at hd
    obtain ⟨hother, hown⟩ := ih hd.2 h
    refine ⟨fun key hkey => ?_, fun before r' rest hrs => ?_⟩
    · rw [List.map_cons, List.mem_cons, not_or] at hkey
      rw [hother key hkey.2, TourMap.lookup_putRoute, if_neg hkey.1]
    · cases before with
      | nil =>
        cases hrs
        refine ⟨e, congrArg Prod.fst he, ?_⟩
        rw [hother r.key hd.1, TourMap.lookup_putRoute, if_pos rfl]
      | cons b before =>
        cases hrs
        obtain ⟨e', he', hat⟩ := hown before r' rest rfl
        refine ⟨e', ?_, hat⟩
        rw [after_cons, he]
        exact he'

theorem nodup_keys_routes (hd : (es.map (·.1)).Nodup)
    (h : c.routes auth loggedIn rs es sc = (.ok es', sc')) : (es'.map (·.1)).Nodup := by
  induction rs generalizing es sc with
  | nil =>
    cases h
    exact hd
  | cons r rs ih =>
    rw [routes] at h
    obtain ⟨e, sc₁, -, h⟩ := Attempt.bind_eq_ok.mp h
    exact ih (TourMap.nodup_keys_putRoute hd r.key e) h

theorem nodup_keys_scanned (found : List String) : ((scanned found).map (·.1)).Nodup :=
  List.pairwise_singleton _ staticKey

/-- A map of visits that begin with a scan knows the anchors that the routes show, and those of the
scan if no route has its key. -/
theorem mem_anchorSet_of_routes {m : TourMap} {found : List String} (hd : (rs.map (·.key)).Nodup)
    (h : c.routes auth loggedIn rs (scanned found) sc = (.ok m.routes, sc')) {a : String} :
    a ∈ m.anchorSet ↔ (a ∈ found ∧ staticKey ∉ rs.map (·.key)) ∨
      ∃ r ∈ rs, ∃ e, m.entry? r.key = some e ∧ a ∈ e.anchors := by
  obtain ⟨hother, -⟩ := lookup_routes hd h
  rw [TourMap.mem_anchorSet (nodup_keys_routes (nodup_keys_scanned found) h)]
  constructor
  · rintro ⟨key, e, he, ha⟩
    by_cases hkey : key ∈ rs.map (·.key)
    · obtain ⟨r, hr, rfl⟩ := List.mem_map.mp hkey
      exact .inr ⟨r, hr, e, he, ha⟩
    · -- what is under no route's key was there before, and that was the scan's entry alone
      have hscanned : (scanned found).lookup key = some e := (hother key hkey).symm.trans he
      rw [scanned, TourMap.lookup_cons] at hscanned
      split_ifs at hscanned with hstatic
      · cases hscanned
        rw [hstatic] at hkey
        exact .inl ⟨ha, hkey⟩
      · cases hscanned
  · rintro (⟨ha, hs⟩ | ⟨r, -, e, he, ha⟩)
    · exact ⟨staticKey, _, hother staticKey hs, ha⟩
    · exact ⟨r.key, e, he, ha⟩

/-- A crawl that gave a map has scanned the source, opened its session, tried to log in and made the
visits that the map is of. -/
theorem map_eq_ok {m : TourMap} (hm : (c.map sc).1 = .ok m) :
    ∃ found sc₁ loggedIn sc₂ sc₃, c.Opens sc found sc₁ ∧ c.login sc₁ = (.ok loggedIn, sc₂) ∧
      c.routes c.authPath? loggedIn c.vocabulary.routes (scanned found) sc₂ =
        (.ok m.routes, sc₃) := by
  rcases hmap : c.map sc with ⟨r, sc₅⟩
  rw [hmap] at hm
  cases hm
  obtain ⟨found, sc₀, hscan, hmap⟩ := Attempt.bind_eq_ok.mp hmap
  obtain ⟨entries, sc₄, hwithin, hmap⟩ := Attempt.bind_eq_ok.mp hmap
  cases hmap
  obtain ⟨⟨⟩, sc₁, hopen, hwithin⟩ := Attempt.bind_eq_ok.mp hwithin
  obtain ⟨sc₃, hvisits, -⟩ := Attempt.thenAlways_eq_ok hwithin
  obtain ⟨loggedIn, sc₂, hlogin, hvisits⟩ := Attempt.bind_eq_ok.mp hvisits
  exact ⟨found, sc₁, loggedIn, sc₂, sc₃, ⟨sc₀, hscan, hopen⟩, hlogin, hvisits⟩

theorem staticPath_not_rooted : staticPath.toList.head? ≠ some '/' := by decide

/-- What a crawl makes of the anchors found in the app's source. Each route has an entry of its own,
from its own visit, under its key; the scan's entry is kept exactly if no route has its key. So the
map knows the anchors that its routes show, and those of the scan as long as no route covers them,
which are then unknown to no tour. -/
theorem map_scan {st : Store} {directory : Path} {m : TourMap}
    (hv : Vocabulary.load st directory = .ok c.vocabulary) (hm : (c.map sc).1 = .ok m) :
    ∃ found sc₁ loggedIn sc₂, c.Opens sc found sc₁ ∧ c.login sc₁ = (.ok loggedIn, sc₂) ∧
      (m.routes.map (·.1)).Nodup ∧
      (∀ before r rest, c.vocabulary.routes = before ++ r :: rest → ∃ e,
        m.entry? r.key = some e ∧ e.path = r.path ∧ Tells e (c.hears loggedIn before r sc₂)) ∧
      (m.entry? staticKey = some { path := staticPath, anchors := found } ↔
        ∀ r ∈ c.vocabulary.routes, r.key ≠ staticKey) ∧
      (∀ a, a ∈ m.anchorSet ↔ (a ∈ found ∧ ∀ r ∈ c.vocabulary.routes, r.key ≠ staticKey) ∨
        ∃ r ∈ c.vocabulary.routes, ∃ e, m.entry? r.key = some e ∧ a ∈ e.anchors) ∧
      ((∀ r ∈ c.vocabulary.routes, r.key ≠ staticKey) → ∀ (t : Tour) (v : Vocabulary),
        ∀ i ∈ t.issues (.of v (some m)), i.kind = .anchor → i.value ∉ found) := by
  obtain ⟨found, sc₁, loggedIn, sc₂, sc₃, hopens, hlogin, hvisits⟩ := map_eq_ok hm
  have hnodup := Vocabulary.nodup_of_load hv
  obtain ⟨hother, hown⟩ := lookup_routes hnodup hvisits
  have hd : (m.routes.map (·.1)).Nodup := nodup_keys_routes (nodup_keys_scanned found) hvisits
  have hentry (before : List Route) (r : Route) (rest : List Route)
      (hroutes : c.vocabulary.routes = before ++ r :: rest) : ∃ e, m.entry? r.key = some e ∧
        e.path = r.path ∧ Tells e (c.hears loggedIn before r sc₂) := by
    obtain ⟨e, he, hat⟩ := hown before r rest hroutes
    exact ⟨e, hat, path_of_entryOf ((c.route_apply ..).symm.trans he), tells_of_route he⟩
  have hunused : (∀ r ∈ c.vocabulary.routes, r.key ≠ staticKey) ↔
      staticKey ∉ c.vocabulary.routes.map (·.key) := by
    simp [eq_comm]
  have hkept (hs : ∀ r ∈ c.vocabulary.routes, r.key ≠ staticKey) :
      m.entry? staticKey = some { path := staticPath, anchors := found } :=
    hother staticKey (hunused.mp hs)
  have hanchors (a : String) : a ∈ m.anchorSet ↔
      (a ∈ found ∧ ∀ r ∈ c.vocabulary.routes, r.key ≠ staticKey) ∨
        ∃ r ∈ c.vocabulary.routes, ∃ e, m.entry? r.key = some e ∧ a ∈ e.anchors := by
    rw [hunused]
    exact mem_anchorSet_of_routes hnodup hvisits
  refine ⟨found, sc₁, loggedIn, sc₂, hopens, hlogin, hd, hentry, ⟨fun hscan r hr hkey => ?_, hkept⟩,
    hanchors, fun hs t v i hi hkind hfound => ?_⟩
  · -- the entry of a route has the route's path, which is not that of the scan
    obtain ⟨before, rest, hroutes⟩ := List.append_of_mem hr
    obtain ⟨e, he, hpath, -⟩ := hentry before r rest hroutes
    rw [hkey, hscan] at he
    cases he
    refine staticPath_not_rooted ?_
    rw [show staticPath = r.path from hpath]
    exact Vocabulary.rooted_of_load hv r hr
  · have hunknown := (Tour.exists_issue_iff.mp ⟨i, hi, hkind, rfl⟩).1
    have hknown := List.contains_iff_mem.mpr ((hanchors i.value).mpr (.inl ⟨hfound, hs⟩))
    rw [Known.isUnknown_anchor, hknown] at hunknown
    cases hunknown

/-- A route with the scan's key covers the scan's entry; an anchor that only the scan found is lost.
-/
theorem map_scan_covered :
    let routes := "\x7b\"routes\": [\x7b\"routeKey\": \"_static\", \"path\": \"/about\"\x7d]\x7d"
    let st : Store := ⟨[(["app"], .directory),
      (["routes.json"], .file (Text.Utf8.encode (String.toList routes))),
      (["events.json"], .file (Text.Utf8.encode (String.toList "\x7b\"events\": []\x7d")))]⟩
    let c : Crawl Unit Unit :=
      { page := patchy "http://app.test/about?tour=1" [], session := ⟨fun _ => pure (), pure ()⟩,
        vocabulary := ⟨[⟨"_static", "/about"⟩], [], "auth"⟩, root := .ofString ".",
        settings := { baseUrl := "http://app.test" }, date := "2026-01-01",
        search := some fun _ => .ended "'tour.home.btn.go'\n" "" 0 }
    let sc : Scene Unit := { page := (), files := st }
    Vocabulary.load st (.ofString ".") = .ok c.vocabulary ∧
      (Scan.source c.search c.root c.directories sc).1 = .ok ["tour.home.btn.go"] ∧
      ∃ m, (c.map sc).1 = .ok m ∧ "tour.home.btn.go" ∉ m.anchorSet ∧
        m.entry? staticKey = some
          { path := "/about", skipped := some "Timeout 30000ms exceeded." } := by
  intro routes st c sc
  have hv : Vocabulary.load st (.ofString ".") = .ok c.vocabulary :=
    ok_of_toOption (by decide +kernel)
  have hscan : (Scan.source c.search c.root c.directories sc).1 = .ok ["tour.home.btn.go"] :=
    ok_of_toOption (by decide +kernel)
  let m : TourMap := ⟨c.date, [(staticKey,
    { path := "/about", skipped := some "Timeout 30000ms exceeded." })], []⟩
  have hm : (c.map sc).1 = .ok m := ok_of_toOption (by decide +kernel)
  obtain ⟨found, -, -, -, -, -, -, -, hkept, hanchors, -⟩ := map_scan hv hm
  refine ⟨hv, hscan, m, hm, fun hmem => ?_, rfl⟩
  rcases (hanchors _).mp hmem with ⟨-, hs⟩ | ⟨r, hr, e, he, ha⟩
  · exact hs ⟨"_static", "/about"⟩ List.mem_cons_self rfl
  · rw [List.mem_singleton.mp hr] at he
    cases he
    cases ha

end Crawl

end Walkthrough
