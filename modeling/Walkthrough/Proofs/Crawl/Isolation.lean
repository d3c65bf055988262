import Walkthrough.Proofs.Crawl.Answers
import Walkthrough.Proofs.Crawl.Visit
import Walkthrough.Proofs.TourMap
/-!
Crawls whatever their page answers. Errors of the browser end a visit but not the crawl, and what a
route's entry says is what was heard of the page during its own visit.
-/

namespace Walkthrough

namespace Crawl

/-- A crawl of which nothing but its visits matters. -/
def visitor {ι σ : Type} (settings : Settings) (timeouts : CrawlTimeouts) (page : Page ι σ) :
    Crawl ι σ where
  page := page
  session := ⟨fun _ => pure (), pure ()⟩
  vocabulary := ⟨[], [], ""⟩
  settings := settings
  timeouts := timeouts
  root := .ofString "."
  date := ""

section

variable {ι σ : Type} (settings : Settings) (timeouts : CrawlTimeouts) (page : Page ι σ)

@[simp] theorem visitor_page : (visitor settings timeouts page).page = page := rfl

@[simp] theorem visitor_settings : (visitor settings timeouts page).settings = settings := rfl

@[simp] theorem visitor_timeouts : (visitor settings timeouts page).timeouts = timeouts := rfl

end

/-- The visit of a route on any page. -/
def visiting (settings : Settings) (timeouts : CrawlTimeouts) (auth : Option String)
    (loggedIn : Bool) (route : Route) : Errand (Except String (List String)) :=
  fun _ _ page => (visitor settings timeouts page).visit auth loggedIn route

section

variable (settings : Settings) (timeouts : CrawlTimeouts)

theorem follows_log (level : Level) (message : String) :
    Errand.Follows fun _ _ _ => log level message := .log level .crawler message

theorem follows_settle : Errand.Follows fun _ _ page =>
    (visitor settings timeouts page).settle := by
  have hpause : Errand.Follows fun _ _ page => if timeouts.settle.isPositive = true then
      Act.ask page (.pause (.num timeouts.settle)) else pure () := by
    split_ifs
    · exact .ask _
    · exact .pure ()
  dsimp only [settle, visitor_page, visitor_timeouts]
  refine .bind (.outcome (.ask _)) fun r => ?_
  rcases r with f | ⟨⟩
  · cases hf : f.isTimeout with
    | true =>
      simp only [hf, Bool.not_true, Bool.false_eq_true, if_false]
      exact .bind (follows_log _ _) fun _ => hpause
    | false =>
      simp only [hf, Bool.not_false, if_true]
      exact .bind (.throw f) fun _ => .bind (follows_log _ _) fun _ => hpause
  · dsimp only
    exact hpause

theorem follows_isLedToLogin (auth : Option String) (route : Route) :
    Errand.Follows fun _ _ page => (visitor settings timeouts page).isLedToLogin route auth := by
  cases auth with
  | none => exact .pure false
  | some path =>
    simp only [isLedToLogin, visitor_page]
    split_ifs
    · exact .pure false
    · exact .bind (.ask _) fun url => .decided _

theorem follows_visiting (auth : Option String) (loggedIn : Bool) (route : Route) :
    (visiting settings timeouts auth loggedIn route).Follows := by
  have harrive : Errand.Follows fun _ _ page =>
      (visitor settings timeouts page).arrive route := by
    simp only [arrive, visitor_page, visitor_settings, visitor_timeouts]
    exact .bind (.decided _) fun url => .bind (.ask _) fun status =>
      .bind (follows_settle settings timeouts) fun _ => .pure status
  have hjudge (status : Option Int) : Errand.Follows fun _ _ page =>
      (visitor settings timeouts page).judge auth loggedIn route status := by
    simp only [judge, visitor_page]
    refine .bind (follows_isLedToLogin settings timeouts auth route) fun led => ?_
    cases led with
    | true => exact .bind (.ask .url) fun url => .pure _
    | false =>
      simp only [Bool.false_eq_true, if_false]
      split
      · exact .pure _
      · exact .bind (.ask .anchors) fun shown => .pure _
  unfold visiting
  simp only [visit_eq]
  exact .bind harrive hjudge

end

variable {ι σ : Type} {c : Crawl ι σ}

theorem visiting_self (auth : Option String) (loggedIn : Bool) (route : Route) :
    visiting c.settings c.timeouts auth loggedIn route c.page = c.visit auth loggedIn route := rfl

/-- Two crawls that hear the same when they visit a route enter the same for it. -/
theorem route_congr {κ τ : Type} {d : Crawl κ τ} (hs : d.settings = c.settings)
    (ht : d.timeouts = c.timeouts) {auth : Option String} {loggedIn : Bool} {route : Route}
    {sc : Scene σ} {tsc : Scene τ}
    (heard : (visiting c.settings c.timeouts auth loggedIn route).heard d.page tsc.page =
      (visiting c.settings c.timeouts auth loggedIn route).heard c.page sc.page) :
    (d.route auth loggedIn route tsc).1 = (c.route auth loggedIn route sc).1 := by
  have hvisit := (follows_visiting c.settings c.timeouts auth loggedIn route).congr heard
  have hself : visiting c.settings c.timeouts auth loggedIn route d.page =
      d.visit auth loggedIn route := by
    rw [← hs, ← ht, visiting_self]
  rw [hself, visiting_self] at hvisit
  rw [route_apply, route_apply, hvisit]

/-- An entry says what was heard on a visit: in order and each once, the anchors that the page was
heard to show last of all, or a reason why there are none. -/
def Tells (e : MapEntry) (heard : List Answered) : Prop :=
  (e.skipped = none ∧ e.anchors.Pairwise (· < ·) ∧ ∃ shown : List String,
    heard.getLast? = some ⟨.anchors, .ok shown⟩ ∧ ∀ a, a ∈ e.anchors ↔ a ∈ shown) ∨
  (e.anchors = [] ∧ ∃ reason, e.skipped = some reason ∧ reason ≠ "")

theorem tells_of_route {auth : Option String} {loggedIn : Bool} {route : Route} {sc : Scene σ}
    {e : MapEntry} (h : (c.route auth loggedIn route sc).1 = .ok e) :
    Tells e ((visiting c.settings c.timeouts auth loggedIn route).heard c.page sc.page) := by
  -- the visit with a record of the answers ends as the visit without it
  have hvisit := (follows_visiting c.settings c.timeouts auth loggedIn route).recording c.page sc
  rw [visiting_self] at hvisit
  rw [c.route_apply auth loggedIn route sc, ← hvisit] at h
  unfold Errand.heard
  unfold visiting at h ⊢
  rcases hr : (visitor c.settings c.timeouts c.page.recording).visit auth loggedIn route
    { page := (sc.page, []) } with ⟨f | found, sc'⟩
  · rw [hr, entryOf] at h
    split_ifs at h
    cases h
    exact .inr ⟨rfl, f.firstLine, rfl, f.firstLine_ne_empty⟩
  · rw [hr] at h
    obtain ⟨reason, rfl, hne⟩ | ⟨shown, sc'', hask, rfl⟩ := visit_eq_ok hr
    · cases h
      exact .inr ⟨rfl, reason, rfl, hne⟩
    · cases h
      refine .inl ⟨rfl, Text.pairwise_sortedSet shown, shown, ?_, fun a => Text.mem_sortedSet⟩
      rw [ask_apply] at hask
      obtain ⟨hanswer, rfl⟩ := Prod.mk.inj hask
      have hsame : (c.page.answer .anchors sc''.page.1).1 = .ok shown := hanswer
      let last : Answered := ⟨.anchors, (c.page.answer .anchors sc''.page.1).1⟩
      change (sc''.page.2 ++ [last]).getLast? = _
      rw [List.getLast?_concat, ← hsame]

/-- The scene that is left by the visits of some routes. -/
def after (c : Crawl ι σ) (auth : Option String) (loggedIn : Bool) (rs : List Route)
    (sc : Scene σ) : Scene σ :=
  rs.foldl (fun sc r => (c.route auth loggedIn r sc).2) sc

theorem after_cons (auth : Option String) (loggedIn : Bool) (r : Route) (rs : List Route)
    (sc : Scene σ) : c.after auth loggedIn (r :: rs) sc =
      c.after auth loggedIn rs (c.route auth loggedIn r sc).2 := by
  rw [after, List.foldl_cons, after]

/-- If each route has an entry, a crawl has the entries of all. -/
theorem routes_ok {auth : Option String} {loggedIn : Bool} {rs : List Route}
    (h : ∀ r ∈ rs, ∀ sc, ∃ e, (c.route auth loggedIn r sc).1 = .ok e)
    (es : List (String × MapEntry)) (sc : Scene σ) :
    ∃ es', c.routes auth loggedIn rs es sc = (.ok es', c.after auth loggedIn rs sc) := by
  induction rs generalizing es sc with
  | nil => exact ⟨es, rfl⟩
  | cons r rs ih =>
    obtain ⟨e, he⟩ := h r List.mem_cons_self sc
    rw [routes, Attempt.bind_of_ok he, after_cons]
    exact ih (fun r hr => h r (List.mem_cons_of_mem _ hr)) _ _

/-- The entries of a crawl are those there were before and one for each route, which is what the
visit of the route made of the scene that the visits before had left. -/
theorem routes_eq_ok {auth : Option String} {loggedIn : Bool} {rs : List Route}
    {es es' : List (String × MapEntry)} {sc sc' : Scene σ}
    (hd : (es.map (·.1) ++ rs.map (·.key)).Nodup)
    (h : c.routes auth loggedIn rs es sc = (.ok es', sc')) :
    es <+: es' ∧
      es'.map (fun e => (e.1, e.2.path)) =
        es.map (fun e => (e.1, e.2.path)) ++ rs.map (fun r => (r.key, r.path)) ∧
      ∀ before r rest, rs = before ++ r :: rest → ∃ e,
        (c.route auth loggedIn r (c.after auth loggedIn before sc)).1 = .ok e ∧
        es'[es.length + before.length]? = some (r.key, e) := by
  induction rs generalizing es sc with
  | nil =>
    cases h
    refine ⟨List.prefix_rfl, by simp, ?_⟩
    intro before r rest hrs
    simp at hrs
  | cons r rs ih =>
    rw [routes] at h
    obtain ⟨e, sc₁, he, h⟩ := Attempt.bind_eq_ok.mp h
    have hnew : r.key ∉ es.map (·.1) := by
      intro hmem
      rw [List.map_cons, List.nodup_append] at hd
      exact hd.2.2 _ hmem _ List.mem_cons_self rfl
    have hpath : e.path = r.path := by
      have hentry := c.route_apply auth loggedIn r sc
      rw [he] at hentry
      exact path_of_entryOf hentry.symm
    rw [TourMap.putRoute_of_not_mem hnew] at h
    have hd' : ((es ++ [(r.key, e)]).map (·.1) ++ rs.map (·.key)).Nodup := by
      simpa using hd
    obtain ⟨hpre, hmap, hall⟩ := ih hd' h
    refine ⟨(List.prefix_append _ _).trans hpre, ?_, ?_⟩
    · rw [hmap, List.map_append, List.map_cons, List.map_cons, List.map_nil, hpath,
        List.append_assoc]
      rfl
    · intro before r' rest hrs
      cases before with
      | nil =>
        cases hrs
        refine ⟨e, congrArg Prod.fst he, ?_⟩
        obtain ⟨more, rfl⟩ := hpre
        simp
      | cons b before =>
        cases hrs
        obtain ⟨e', he', hat⟩ := hall before r' rest rfl
        refine ⟨e', ?_, ?_⟩
        · rw [after_cons, he]
          exact he'
        · have hplace : es.length + (before.length + 1) = es.length + 1 + before.length := by omega
          rw [List.length_append, List.length_singleton] at hat
          rw [List.length_cons, hplace]
          exact hat

/-- What a scan of the source found, and the scene in which the session is open. -/
def Opens (c : Crawl ι σ) (sc : Scene σ) (found : List String) (sc₁ : Scene σ) : Prop :=
  ∃ sc₀, Scan.source c.search c.root c.directories sc = (.ok found, sc₀) ∧
    c.session.opening c.options sc₀ = (.ok (), sc₁)

/-- The login page's path, which visits are told. -/
def authPath? (c : Crawl ι σ) : Option String := c.vocabulary.auth?.map (·.path)

/-- The entries there are before a route is visited. -/
def scanned (found : List String) : List (String × MapEntry) :=
  [(staticKey, { path := staticPath, anchors := found })]

/-- What a crawl hears of its page when it visits a route, some routes having been visited after a
login. -/
def hears (c : Crawl ι σ) (loggedIn : Bool) (before : List Route) (route : Route) (sc : Scene σ) :
    List Answered :=
  (visiting c.settings c.timeouts c.authPath? loggedIn route).heard c.page
    (c.after c.authPath? loggedIn before sc).page

/-- How a crawl ends when its session is open: as its visits do, if the session can be closed. -/
theorem map_apply {sc sc₁ sc₂ sc₃ : Scene σ} {found : List String} {loggedIn : Bool}
    {r : Except Fault (List (String × MapEntry))} (ho : c.Opens sc found sc₁)
    (hl : c.login sc₁ = (.ok loggedIn, sc₂))
    (hr : c.routes c.authPath? loggedIn c.vocabulary.routes (scanned found) sc₂ = (r, sc₃)) :
    (c.map sc).1 = (c.session.closing sc₃).1.bind fun _ =>
      r.map fun es => ⟨c.date, es, c.vocabulary.events⟩ := by
  obtain ⟨sc₀, hscan, hopen⟩ := ho
  have hvisits : (c.login >>= fun loggedIn =>
      c.routes c.authPath? loggedIn c.vocabulary.routes (scanned found)) sc₁ = (r, sc₃) := by
    rw [Attempt.bind_ok hl, hr]
  have hwithin : c.session.within c.options (c.login >>= fun loggedIn =>
      c.routes c.authPath? loggedIn c.vocabulary.routes (scanned found)) sc₀ =
      match c.session.closing sc₃ with
        | (.ok (), sc') => (r, sc')
        | (.error f, sc') => (.error f, sc') := by
    rw [Session.within, Attempt.bind_ok hopen, Attempt.thenAlways_apply, hvisits]
    rcases c.session.closing sc₃ with ⟨f | ⟨⟩, sc'⟩ <;> rfl
  unfold map
  rw [Attempt.bind_ok hscan]
  change ((c.session.within c.options (c.login >>= fun loggedIn =>
    c.routes c.authPath? loggedIn c.vocabulary.routes (scanned found)) >>= fun es =>
      pure (⟨c.date, es, c.vocabulary.events⟩ : TourMap)) sc₀).1 = _
  rw [Attempt.bind_apply, hwithin]
  rcases c.session.closing sc₃ with ⟨f | ⟨⟩, sc'⟩
  · rfl
  · cases r <;> rfl

theorem nodup_scanned (found : List String) (hs : staticKey ∉ c.vocabulary.routeKeys)
    (hd : c.vocabulary.routeKeys.Nodup) :
    ((scanned found).map (·.1) ++ c.vocabulary.routes.map (·.key)).Nodup :=
  List.nodup_cons.mpr ⟨hs, hd⟩

/-- What a crawl that gave a map entered for a route. -/
theorem entry_of_map {sc sc₁ sc₂ : Scene σ} {found : List String} {loggedIn : Bool} {m : TourMap}
    (hs : staticKey ∉ c.vocabulary.routeKeys) (hd : c.vocabulary.routeKeys.Nodup)
    (ho : c.Opens sc found sc₁) (hl : c.login sc₁ = (.ok loggedIn, sc₂))
    (hm : (c.map sc).1 = .ok m) {before rest : List Route} {route : Route}
    (hroutes : c.vocabulary.routes = before ++ route :: rest) :
    ∃ e, (c.route c.authPath? loggedIn route (c.after c.authPath? loggedIn before sc₂)).1 = .ok e ∧
      m.routes[before.length + 1]? = some (route.key, e) := by
  rcases hr : c.routes c.authPath? loggedIn c.vocabulary.routes (scanned found) sc₂ with ⟨r, sc₃⟩
  rw [map_apply ho hl hr] at hm
  obtain ⟨-, -, hm⟩ := bind_eq_ok.mp hm
  rcases r with f | es
  · cases hm
  · cases hm
    obtain ⟨-, -, hall⟩ := routes_eq_ok (nodup_scanned found hs hd) hr
    obtain ⟨e, he, hat⟩ := hall before route rest hroutes
    refine ⟨e, he, ?_⟩
    rw [Nat.add_comm]
    exact hat

/-- A crawl gives a map once its session is open, whatever errors of the browser the page meets: the
scan's entry and one for each route, which tells what was heard on the visit of that route. Two
crawls that heard the same on their visits of a route, and of which both or none are logged in, have
one entry for it, whatever they met elsewhere. -/
theorem map_isolated {st : Store} {directory : Path} {sc sc₁ : Scene σ} {found : List String}
    (hv : Vocabulary.load st directory = .ok c.vocabulary)
    (hs : ∀ r ∈ c.vocabulary.routes, r.key ≠ staticKey)
    (hu : ∀ r ∈ c.vocabulary.routes, ∃ url, routeUrl c.settings.baseUrl r.path = .ok url)
    (hp : c.page.Browses) (ho : c.Opens sc found sc₁) :
    ∃ loggedIn sc₂ m, c.login sc₁ = (.ok loggedIn, sc₂) ∧
      (c.map sc).1 = (c.session.closing
        (c.after c.authPath? loggedIn c.vocabulary.routes sc₂)).1.map (fun _ => m) ∧
      (∀ b : Browser σ, c.session = b.session →
        (∀ call s f, (b.answer call s).1 = .error f → f.isBrowser = true) →
        (∀ s, (b.answer .stop s).1 = .ok ()) → (c.map sc).1 = .ok m) ∧
      m.generatedAt = c.date ∧ m.events = c.vocabulary.events ∧
      m.routes[0]? = some (staticKey, { path := staticPath, anchors := found }) ∧
      m.routes.map (fun e => (e.1, e.2.path)) =
        (staticKey, staticPath) :: c.vocabulary.routes.map (fun r => (r.key, r.path)) ∧
      ∀ before route rest, c.vocabulary.routes = before ++ route :: rest → ∃ e,
        m.routes[before.length + 1]? = some (route.key, e) ∧
        Tells e (c.hears loggedIn before route sc₂) ∧
        ∀ {κ τ : Type} (d : Crawl κ τ) (tsc tsc₁ tsc₂ : Scene τ) (found' : List String)
          (m' : TourMap), d.vocabulary = c.vocabulary → d.settings = c.settings →
          d.timeouts = c.timeouts → d.Opens tsc found' tsc₁ → d.login tsc₁ = (.ok loggedIn, tsc₂) →
          (d.map tsc).1 = .ok m' →
          d.hears loggedIn before route tsc₂ = c.hears loggedIn before route sc₂ →
          m'.routes[before.length + 1]? = some (route.key, e) := by
  have hd := Vocabulary.nodup_of_load hv
  have hstatic : staticKey ∉ c.vocabulary.routeKeys := by
    intro hmem
    obtain ⟨r, hr, hkey⟩ := List.mem_map.mp hmem
    exact hs r hr hkey
  obtain ⟨loggedIn, hl⟩ := login_ok hp hu sc₁
  rcases hlogin : c.login sc₁ with ⟨r, sc₂⟩
  rw [hlogin] at hl
  cases hl
  have hroute (r : Route) (hr : r ∈ c.vocabulary.routes) (sc : Scene σ) :
      ∃ e, (c.route c.authPath? loggedIn r sc).1 = .ok e := by
    obtain ⟨url, hurl⟩ := hu r hr
    exact route_ok hp hurl c.authPath? loggedIn sc
  obtain ⟨es, hes⟩ := routes_ok hroute (scanned found) sc₂
  obtain ⟨hpre, hpaths, hall⟩ := routes_eq_ok (nodup_scanned found hstatic hd) hes
  have hmap := map_apply ho hlogin hes
  refine ⟨loggedIn, sc₂, ⟨c.date, es, c.vocabulary.events⟩, rfl, hmap, ?_, rfl, rfl, ?_, hpaths, ?_⟩
  · intro b hb hfaults hstop
    rw [hmap, hb, show (b.session.closing _).1 = .ok () from b.shutdown_ok hfaults hstop _]
    rfl
  · obtain ⟨more, rfl⟩ := hpre
    rfl
  · intro before route rest hroutes
    obtain ⟨e, he, hat⟩ := hall before route rest hroutes
    refine ⟨e, by rw [Nat.add_comm]; exact hat, tells_of_route he, ?_⟩
    intro κ τ d tsc tsc₁ tsc₂ found' m' hdv hds hdt hdo hdl hdm heard
    rw [← hdv] at hstatic hd hroutes
    obtain ⟨e', he', hat'⟩ := entry_of_map hstatic hd hdo hdl hdm hroutes
    have hauth : d.authPath? = c.authPath? := by rw [authPath?, hdv, authPath?]
    have hsame : e' = e := by
      rw [hears, hears, hds, hdt, hauth] at heard
      rw [hauth, route_congr hds hdt heard, he] at he'
      exact (Except.ok.inj he').symm
    rw [← hsame]
    exact hat'

/-- A page that cannot come to one address and shows some anchors at every other. -/
def patchy (lost : String) (shown : List String) : Page Unit Unit where
  answer call s :=
    (match call with
      | .goto url .. =>
        if url = lost then .error (.page .timeout "Timeout 30000ms exceeded.") else .ok (some 200)
      | .url => .ok "http://app.test/"
      | .anchors => .ok shown
      | .screenshot .. => .ok []
      | .count _ => .ok 0
      | .addInitScript | .waitForLoad .. | .pause _ | .waitForLeaving .. | .waitForEvent ..
      | .waitVisible .. | .click .. | .fill .. => .ok (), s)
  clock s := (.ok (), s)

theorem patchy_browses (lost : String) (shown : List String) : (patchy lost shown).Browses where
  fault call s f h := by
    cases call with
    | goto url state timeout =>
      simp only [patchy] at h
      split_ifs at h
      cases h
      rfl
    | _ => cases h
  url s url h := by
    cases h
    exact ⟨_, ok_of_toOption (y := ⟨"http".toList, "app.test".toList, ['/'], [], []⟩)
      (by decide +kernel)⟩

/-- A route whose page is lost is skipped, and the next one is not. -/
theorem map_isolated_lost :
    let routes := "\x7b\"routes\": [\x7b\"routeKey\": \"lost\", \"path\": \"/lost\"\x7d, " ++
      "\x7b\"routeKey\": \"home\", \"path\": \"/\"\x7d]\x7d"
    let st : Store := ⟨[
      (["routes.json"], .file (Text.Utf8.encode (String.toList routes))),
      (["events.json"], .file (Text.Utf8.encode (String.toList "\x7b\"events\": []\x7d")))]⟩
    let page := patchy "http://app.test/lost?tour=1" ["tour.home.nav.link", "tour.home.nav.link"]
    let c : Crawl Unit Unit :=
      { page := page, session := ⟨fun _ => pure (), pure ()⟩, date := "2026-01-01",
        vocabulary := ⟨[⟨"lost", "/lost"⟩, ⟨"home", "/"⟩], [], "auth"⟩, root := .ofString ".",
        settings := { baseUrl := "http://app.test" } }
    let sc : Scene Unit := { page := () }
    Vocabulary.load st (.ofString ".") = .ok c.vocabulary ∧ c.page.Browses ∧
      ∃ m, (c.map sc).1 = .ok m ∧
        m.routes.map (fun e => (e.1, e.2.path)) =
          [(staticKey, staticPath), ("lost", "/lost"), ("home", "/")] ∧
        m.anchors = ["tour.home.nav.link"] ∧
        m.skippedRoutes = [("lost", "Timeout 30000ms exceeded.")] := by
  intro routes st page c sc
  have hv : Vocabulary.load st (.ofString ".") = .ok c.vocabulary :=
    ok_of_toOption (by decide +kernel)
  have hp : c.page.Browses := patchy_browses _ _
  have hs : ∀ r ∈ c.vocabulary.routes, r.key ≠ staticKey := by decide
  have hu : ∀ r ∈ c.vocabulary.routes, ∃ url, routeUrl c.settings.baseUrl r.path = .ok url := by
    have hlost : routeUrl c.settings.baseUrl "/lost" = .ok "http://app.test/lost?tour=1" :=
      ok_of_toOption (by decide +kernel)
    have hhome : routeUrl c.settings.baseUrl "/" = .ok "http://app.test/?tour=1" :=
      ok_of_toOption (by decide +kernel)
    exact List.forall_mem_cons.mpr ⟨⟨_, hlost⟩, List.forall_mem_singleton.mpr ⟨_, hhome⟩⟩
  have ho : c.Opens sc [] (Scan.source c.search c.root c.directories sc).2 := ⟨_, rfl, rfl⟩
  obtain ⟨loggedIn, sc₂, m, -, hmap, -, -, -, -, hpaths, -⟩ := map_isolated hv hs hu hp ho
  let entries : List (String × MapEntry) := [(staticKey, { path := staticPath }),
    ("lost", { path := "/lost", skipped := some "Timeout 30000ms exceeded." }),
    ("home", { path := "/", anchors := ["tour.home.nav.link"] })]
  have heval : (c.map sc).1 = .ok ⟨c.date, entries, []⟩ := ok_of_toOption (by decide +kernel)
  have hm : m = ⟨c.date, entries, []⟩ := Except.ok.inj (hmap.symm.trans heval)
  refine ⟨hv, hp, m, hmap, hpaths, ?_, ?_⟩
  · rw [hm]
    decide
  · rw [hm]
    decide

end Crawl

end Walkthrough
