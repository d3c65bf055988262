import Mathlib.Logic.Function.Iterate
import Walkthrough.Proofs.Crawl.Visit
import Walkthrough.Proofs.Url.Mount
/-!
The login page. A page that was led there is known by its URL, which is compared with the login
page's path as it is configured: at the root of its host an app's login page is known as such,
elsewhere it is taken for the page of the route.
-/

namespace Walkthrough

namespace Page

variable {ι σ : Type}

/-- However often a page is asked for its URL, it gives one and the same. -/
def Shows (page : Page ι σ) (url : String) (s : σ) : Prop :=
  ∀ n : Nat, (page.answer .url ((fun s => (page.answer .url s).2)^[n] s)).1 = .ok url

/-- A page stays where it is: waiting until it leaves a path ends at once if it is elsewhere, and
else not in time. -/
structure Stays (page : Page ι σ) (url path : String) (timeout : Number) (s : σ) : Prop where
  elsewhere : leadsTo url path = .ok false →
    (page.answer (.waitForLeaving path timeout) s).1 = .ok ()
  there : leadsTo url path = .ok true →
    ∃ message, (page.answer (.waitForLeaving path timeout) s).1 = .error (.page .timeout message)

end Page

namespace Crawl

variable {ι σ : Type} {c : Crawl ι σ}

/-- A page that shows a URL is led to the login page if the URL leads to the login page's path. -/
theorem judge_of_shows {url path : String} {route : Route} {sc : Scene σ}
    (hs : c.page.Shows url sc.page) (hne : route.path ≠ path) (loggedIn : Bool)
    (status : Option Int) {led : Bool} (hl : leadsTo url path = .ok led) :
    (c.judge (some path) loggedIn route status sc).1 =
      if led then
        .ok (.error (ledReason loggedIn url))
      else match status.filter (400 ≤ ·) with
        | some n => .ok (.error s!"HTTP {n}")
        | none => (c.page.answer .anchors (c.page.answer .url sc.page).2).1.map fun shown =>
            .ok (Text.sortedSet shown) := by
  have hfirst : Act.ask c.page .url sc =
      (.ok url, { sc with page := (c.page.answer .url sc.page).2 }) := by
    rw [ask_apply, show (c.page.answer .url sc.page).1 = .ok url from hs 0]
  have hled : c.isLedToLogin route (some path) sc =
      (.ok led, { sc with page := (c.page.answer .url sc.page).2 }) := by
    unfold isLedToLogin
    dsimp only
    rw [if_neg hne, Attempt.bind_ok hfirst, hl]
    rfl
  unfold judge
  rw [Attempt.bind_ok hled]
  cases led with
  | true =>
    have hagain : (c.page.answer .url (c.page.answer .url sc.page).2).1 = .ok url := hs 1
    rw [if_pos rfl, if_pos rfl, Attempt.bind_apply, ask_apply, hagain]
    rfl
  | false =>
    rw [if_neg Bool.false_ne_true, if_neg Bool.false_ne_true]
    cases status.filter (400 ≤ ·) with
    | none =>
      dsimp only
      rw [Attempt.bind_apply, ask_apply]
      cases (c.page.answer .anchors (c.page.answer .url sc.page).2).1 <;> rfl
    | some n => rfl

/-- What a crawl makes of the login page's own URL. Where the URL leads to the login page's path, a
route that was led there is skipped, and a login that did not leave the page has failed. Where it
does not, what the login page shows is entered for the route, and the login counts. The URL leads to
the path if it shows the path as it is configured: not if the app is mounted below the root of its
host. -/
theorem loginPage_isLed {path url : String} (hu : routeUrl c.settings.baseUrl path = .ok url) :
    (∀ route loggedIn sc sc' status, route.path ≠ path →
      c.arrive route sc = (.ok status, sc') → c.page.Shows url sc'.page →
      (leadsTo url path = .ok true →
        (c.route (some path) loggedIn route sc).1 =
          .ok { path := route.path, skipped := some (ledReason loggedIn url) }) ∧
      (leadsTo url path = .ok false → ∀ shown, (∀ n ∈ status, n < 400) →
        (c.page.answer .anchors (c.page.answer .url sc'.page).2).1 = .ok shown →
        (c.route (some path) loggedIn route sc).1 =
          .ok { path := route.path, anchors := Text.sortedSet shown })) ∧
    (∀ auth sc sc' led, c.settings.hasCredentials = true → c.vocabulary.auth? = some auth →
      auth.path = path → c.enter path sc = (.ok (), sc') →
      c.page.Stays url path c.timeouts.login sc'.page → leadsTo url path = .ok led →
      (c.login sc).1 = .ok (!led)) ∧
    (∀ (m : Mount) (slashes : Nat), m.WellFormed → c.settings.baseUrl = m.base slashes →
      path.toList.head? = some '/' →
      leadsTo url path = .ok (Text.stripEnd (· == '/') (m.shownPath path) ==
        Text.stripEnd (· == '/') path.toList) ∧
      (IsLiteral path → leadsTo url path = .ok (decide (m.path = [])))) := by
  refine ⟨?_, ?_, ?_⟩
  · intro route loggedIn sc sc' status hne harrive hs
    have hvisit : (c.visit (some path) loggedIn route sc).1 =
        (c.judge (some path) loggedIn route status sc').1 := by
      rw [visit_eq, Attempt.bind_ok harrive]
    constructor
    · intro hl
      rw [c.route_apply (some path) loggedIn route sc, hvisit,
        judge_of_shows hs hne loggedIn status hl]
      rfl
    · intro hl shown hstatus hshown
      have hgood : status.filter (400 ≤ ·) = none := by
        rw [Option.filter_eq_none_iff]
        intro n hn
        simpa using hstatus n hn
      rw [c.route_apply (some path) loggedIn route sc, hvisit,
        judge_of_shows hs hne loggedIn status hl, hgood, hshown]
      rfl
  · intro auth sc sc' led hc ha hpath henter hstays hl
    have hsign : (c.signIn auth.path sc).1 =
        (c.page.answer (.waitForLeaving path c.timeouts.login) sc'.page).1 := by
      rw [hpath, signIn_eq, Attempt.bind_ok henter, ask_apply]
    rw [c.login_apply hc ha, hsign]
    cases led with
    | false =>
      rw [hstays.elsewhere hl]
      rfl
    | true =>
      obtain ⟨message, hm⟩ := hstays.there hl
      rw [hm]
      rfl
  · intro m slashes hm hb hroot
    rw [hb] at hu
    have hl := hm.leadsTo_routeUrl hroot hu path
    refine ⟨hl, fun hlit => ?_⟩
    rw [hl, beq_eq_decide]
    simp only [hm.shownPath_iff_of_isLiteral hlit]

/-- A page that is led to one address, wherever it is sent, and shows some anchors there. -/
def led (url : String) (shown : List String) : Page Unit Unit where
  answer call s :=
    (match call with
      | .goto .. => .ok (some 200)
      | .url => .ok url
      | .anchors => .ok shown
      | .screenshot .. => .ok []
      | .count _ => .ok 0
      | .addInitScript | .waitForLoad .. | .pause _ | .waitForLeaving .. | .waitForEvent ..
      | .waitVisible .. | .click .. | .fill .. => .ok (), s)
  clock s := (.ok (), s)

theorem led_shows (url : String) (shown : List String) (s : Unit) : (led url shown).Shows url s :=
  fun _ => rfl

/-- The login page of a shop below the root of its host is entered for its dashboard. -/
theorem loginPage_isLed_shop :
    let auth : Route := ⟨"auth", "/auth"⟩
    let dashboard : Route := ⟨"dashboard", "/dashboard"⟩
    let url := "http://app.test/shop/auth?tour=1"
    let c : Crawl Unit Unit :=
      { page := led url [submitAnchor], session := ⟨fun _ => pure (), pure ()⟩,
        date := "2026-01-01", vocabulary := ⟨[auth, dashboard], [], "auth"⟩,
        root := .ofString ".", settings := { baseUrl := "http://app.test/shop" } }
    let sc : Scene Unit := { page := () }
    routeUrl c.settings.baseUrl auth.path = .ok url ∧ leadsTo url auth.path = .ok false ∧
      c.page.Shows url (c.arrive dashboard sc).2.page ∧
      (c.route (some auth.path) false dashboard sc).1 =
        .ok { path := "/dashboard", anchors := [submitAnchor] } := by
  intro auth dashboard url c sc
  have hu : routeUrl c.settings.baseUrl auth.path = .ok url := ok_of_toOption (by decide +kernel)
  obtain ⟨hroute, -, hmount⟩ := loginPage_isLed hu
  have hled : leadsTo url auth.path = .ok false := by
    let shop : Mount := ⟨"http".toList, "app.test".toList, "/shop".toList⟩
    -- not over all characters there are, but over those of the list
    have hall {P : Char → Prop} [DecidablePred P] {s : List Char}
        (h : s.all (fun c => decide (P c)) = true) : ∀ c ∈ s, P c :=
      fun c hc => of_decide_eq_true (List.all_eq_true.mp h c hc)
    have hm : shop.WellFormed :=
      ⟨by decide, by decide, hall (by decide), hall (by decide), by decide, by decide⟩
    have hliteral : IsLiteral auth.path := ⟨by decide, hall (by decide)⟩
    exact (hmount shop 0 hm (by decide) (by decide)).2 hliteral
  have harrive : (c.arrive dashboard sc).1 = .ok (some 200) := ok_of_toOption (by decide +kernel)
  have hshows : c.page.Shows url (c.arrive dashboard sc).2.page := led_shows _ _ _
  have hshown : (c.page.answer .anchors (c.page.answer .url (c.arrive dashboard sc).2.page).2).1 =
      .ok [submitAnchor] := ok_of_toOption (by decide +kernel)
  refine ⟨hu, hled, hshows, ?_⟩
  have hboth : c.arrive dashboard sc = (.ok (some 200), (c.arrive dashboard sc).2) := by
    rw [← harrive, Prod.eta]
  have hgood : ∀ n ∈ (some 200 : Option Int), n < 400 := by
    rintro n ⟨⟩
    decide
  have hentered := (hroute dashboard false sc _ _ (by decide) hboth hshows).2 hled _ hgood hshown
  have hset : Text.sortedSet [submitAnchor] = [submitAnchor] := by decide +kernel
  rw [hset] at hentered
  exact hentered

end Crawl

end Walkthrough
