import Walkthrough.Crawl
import Walkthrough.Proofs.Except
import Walkthrough.Proofs.Session
/-!
Visits of a crawl. A visit arrives at a page and judges what it shows; how it ends is entered for
the route. Where nothing but errors of the browser is raised, each visit has an entry and a login an
answer.
-/

namespace Walkthrough

namespace Crawl

variable {ι σ : Type} (c : Crawl ι σ)

/-- Fills in the login page. -/
def enter (path : String) : Act σ Unit := do
  let t := c.timeouts
  let url ← Attempt.decided (routeUrl c.settings.baseUrl path)
  let _ : Option Int ← Act.ask c.page (.goto url .loaded t.navigation)
  Act.ask c.page (.fill (selectorOf emailAnchor) (.str (c.settings.email.getD "")) t.login)
  Act.ask c.page (.fill (selectorOf passwordAnchor) (.str (c.settings.password.getD "")) t.login)
  Act.ask c.page (.click (selectorOf submitAnchor) t.login)

theorem signIn_eq (path : String) : c.signIn path =
    c.enter path >>= fun _ => Act.ask c.page (.waitForLeaving path c.timeouts.login) := by
  simp only [signIn, enter, bind_assoc]

/-- Goes to a route's page, which may lead to another, and waits until it is idle. -/
def arrive (route : Route) : Act σ (Option Int) := do
  let url ← Attempt.decided (routeUrl c.settings.baseUrl route.path)
  let status : Option Int ← Act.ask c.page (.goto url .loaded c.timeouts.navigation)
  c.settle
  return status

/-- The reason to skip a route that was led to the login page. -/
def ledReason (loggedIn : Bool) (url : String) : String :=
  let despite := if loggedIn then "despite login " else ""
  s!"redirected to auth {despite}({url})"

/-- What is made of the page that a visit has come to. -/
def judge (auth : Option String) (loggedIn : Bool) (route : Route) (status : Option Int) :
    Act σ (Except String (List String)) := do
  if ← c.isLedToLogin route auth then
    let url : String ← Act.ask c.page .url
    return .error (ledReason loggedIn url)
  match status.filter (400 ≤ ·) with
  | some n => return .error s!"HTTP {n}"
  | none =>
    let shown : List String ← Act.ask c.page .anchors
    return .ok (Text.sortedSet shown)

theorem visit_eq (auth : Option String) (loggedIn : Bool) (route : Route) :
    c.visit auth loggedIn route = c.arrive route >>= c.judge auth loggedIn route := by
  simp only [visit, arrive, judge, bind_assoc, pure_bind]
  rfl

/-- What is entered for a route, as its visit ends. -/
def entryOf (route : Route) : Except Fault (Except String (List String)) → Except Fault MapEntry
  | .ok (.ok anchors) => .ok { path := route.path, anchors := anchors }
  | .ok (.error reason) => .ok { path := route.path, skipped := some reason }
  | .error f =>
    if f.isBrowser then .ok { path := route.path, skipped := some f.firstLine } else .error f

theorem ask_apply (page : Page ι σ) (call : PageCall) (sc : Scene σ) :
    Act.ask page call sc = ((page.answer call sc.page).1,
      { sc with page := (page.answer call sc.page).2 }) := rfl

theorem log_then {α : Type} (level : Level) (message : String) (x : α) (sc : Scene σ) :
    ((log level message >>= fun _ => pure x : Act σ α) sc).1 = .ok x := rfl

/-- A route's entry is what is made of the end of its visit. -/
theorem route_apply (auth : Option String) (loggedIn : Bool) (route : Route) (sc : Scene σ) :
    (c.route auth loggedIn route sc).1 = entryOf route (c.visit auth loggedIn route sc).1 := by
  unfold Crawl.route
  rw [Attempt.bind_ok (Attempt.outcome_apply _ sc)]
  generalize (c.visit auth loggedIn route sc).1 = r
  rcases r with f | reason | anchors
  · cases hf : f.isBrowser with
    | true => simp only [hf, if_true, entryOf, pure_bind, log_then]
    | false =>
      simp only [hf, entryOf]
      rfl
  · simp only [pure_bind, log_then, entryOf]
  · simp only [pure_bind, log_then, entryOf]

theorem login_apply {auth : Route} (hc : c.settings.hasCredentials = true)
    (ha : c.vocabulary.auth? = some auth) (sc : Scene σ) :
    (c.login sc).1 = match (c.signIn auth.path sc).1 with
      | .ok () => .ok true
      | .error f => if f.isBrowser then .ok false else .error f := by
  unfold login
  rw [hc, ha]
  simp only [Bool.not_true, Bool.false_eq_true, if_false]
  rw [Attempt.bind_ok (Attempt.outcome_apply _ sc)]
  rcases (c.signIn auth.path sc).1 with f | ⟨⟩
  · by_cases hf : f.isBrowser = true
    · simp only [hf]
      rfl
    · simp only [hf]
      rfl
  · rfl

variable {c}

section

variable (hp : c.page.Browses)

include hp

theorem settle_mild : c.settle.Mild := by
  have hpause : Act.Mild (if c.timeouts.settle.isPositive = true then
      Act.ask c.page (.pause (.num c.timeouts.settle)) else pure ()) := by
    split_ifs
    · exact hp.ask _
    · exact .of_ok fun _ => ⟨(), rfl⟩
  have hlog (level : Level) (message : String) : (log level message : Act σ Unit).Mild :=
    .of_ok fun _ => ⟨(), rfl⟩
  dsimp only [settle]
  refine .bind (.of_ok fun _ => ⟨_, rfl⟩) fun r sc sc' hr => ?_
  rcases r with f | ⟨⟩
  · cases hf : f.isTimeout with
    | true =>
      simp only [hf, Bool.not_true, Bool.false_eq_true, if_false]
      exact .bind (hlog _ _) fun _ _ _ _ => hpause
    | false =>
      have hbrowser : f.isBrowser = true := by
        rw [Attempt.outcome_apply] at hr
        exact hp.ask _ sc f (Except.ok.inj (Prod.mk.inj hr).1)
      simp only [hf, Bool.not_false, if_true]
      refine .bind (fun sc g hg => ?_) fun _ _ _ h => by cases h
      cases hg
      exact hbrowser
  · dsimp only
    exact hpause

theorem isLedToLogin_mild (route : Route) (auth : Option String) :
    (c.isLedToLogin route auth).Mild := by
  cases auth with
  | none => exact .of_ok fun _ => ⟨false, rfl⟩
  | some path =>
    dsimp only [isLedToLogin]
    split_ifs
    · exact .of_ok fun _ => ⟨false, rfl⟩
    · refine .bind (hp.ask _) fun url sc sc' hurl => ?_
      obtain ⟨u, hu⟩ := hp.url sc.page url (congrArg Prod.fst hurl)
      have hled : ∃ led, leadsTo url path = .ok led := by
        rw [leadsTo, hu, ok_bind]
        exact ⟨_, rfl⟩
      exact .of_ok fun _ => hled

theorem visit_mild {route : Route} {url : String}
    (hu : routeUrl c.settings.baseUrl route.path = .ok url) (auth : Option String)
    (loggedIn : Bool) : (c.visit auth loggedIn route).Mild := by
  have harrive : (c.arrive route).Mild := by
    unfold arrive
    exact .bind (.of_ok fun _ => ⟨url, hu⟩) fun _ _ _ _ => .bind (hp.ask _) fun status _ _ _ =>
      .bind (settle_mild hp) fun _ _ _ _ => .of_ok fun _ => ⟨status, rfl⟩
  have hjudge (status : Option Int) : (c.judge auth loggedIn route status).Mild := by
    unfold judge
    refine .bind (isLedToLogin_mild hp route auth) fun led _ _ _ => ?_
    cases led with
    | true =>
      exact .bind (hp.ask .url) fun url _ _ _ => .of_ok fun _ => ⟨.error (ledReason _ url), rfl⟩
    | false =>
      simp only [Bool.false_eq_true, if_false]
      split
      · exact .of_ok fun _ => ⟨_, rfl⟩
      · exact .bind (hp.ask .anchors) fun shown _ _ _ =>
          .of_ok fun _ => ⟨.ok (Text.sortedSet shown), rfl⟩
  rw [visit_eq]
  exact .bind harrive fun status _ _ _ => hjudge status

/-- Whatever ends the visit of a route, the route has an entry. -/
theorem route_ok {route : Route} {url : String}
    (hu : routeUrl c.settings.baseUrl route.path = .ok url) (auth : Option String)
    (loggedIn : Bool) (sc : Scene σ) : ∃ e, (c.route auth loggedIn route sc).1 = .ok e := by
  have hmild := visit_mild hp hu auth loggedIn sc
  rw [c.route_apply auth loggedIn route sc]
  generalize (c.visit auth loggedIn route sc).1 = r at hmild
  rcases r with f | reason | anchors
  · exact ⟨_, if_pos (hmild f rfl)⟩
  · exact ⟨_, rfl⟩
  · exact ⟨_, rfl⟩

/-- Whether someone can log in or not, a login ends with an answer. -/
theorem login_ok (hu : ∀ r ∈ c.vocabulary.routes, ∃ url,
    routeUrl c.settings.baseUrl r.path = .ok url) (sc : Scene σ) :
    ∃ loggedIn, (c.login sc).1 = .ok loggedIn := by
  cases hc : c.settings.hasCredentials with
  | false =>
    refine ⟨false, ?_⟩
    rw [login, hc]
    rfl
  | true =>
    cases ha : c.vocabulary.auth? with
    | none =>
      refine ⟨false, ?_⟩
      rw [login, hc, ha]
      rfl
    | some auth =>
      obtain ⟨url, hurl⟩ := hu auth (List.mem_of_find?_eq_some ha)
      have hsign : (c.signIn auth.path).Mild := by
        dsimp only [signIn]
        exact .bind (.of_ok fun _ => ⟨url, hurl⟩) fun _ _ _ _ => .bind (hp.ask _) fun _ _ _ _ =>
          .bind (hp.ask _) fun _ _ _ _ => .bind (hp.ask _) fun _ _ _ _ =>
            .bind (hp.ask _) fun _ _ _ _ => hp.ask _
      rw [c.login_apply hc ha]
      have hmild := hsign sc
      generalize (c.signIn auth.path sc).1 = r at hmild
      rcases r with f | ⟨⟩
      · exact ⟨false, if_pos (hmild f rfl)⟩
      · exact ⟨true, rfl⟩

end

theorem path_of_entryOf {route : Route} {r : Except Fault (Except String (List String))}
    {e : MapEntry} (h : entryOf route r = .ok e) : e.path = route.path := by
  rcases r with f | reason | anchors
  · rw [entryOf] at h
    split_ifs at h
    cases h
    rfl
  · cases h
    rfl
  · cases h
    rfl

theorem ledReason_ne_empty (loggedIn : Bool) (url : String) : ledReason loggedIn url ≠ "" := by
  have hstart : toString "redirected to auth " ≠ "" := by decide
  unfold ledReason
  simp [hstart]

/-- A visit that was not broken off found a reason to skip the route, or asked the page last of all
for its anchors and found these. -/
theorem visit_eq_ok {auth : Option String} {loggedIn : Bool} {route : Route} {sc sc' : Scene σ}
    {found : Except String (List String)}
    (h : c.visit auth loggedIn route sc = (.ok found, sc')) :
    (∃ reason, found = .error reason ∧ reason ≠ "") ∨
      ∃ shown sc'', Act.ask c.page .anchors sc'' = (.ok shown, sc') ∧
        found = .ok (Text.sortedSet shown) := by
  rw [visit_eq] at h
  obtain ⟨status, sc₁, -, h⟩ := Attempt.bind_eq_ok.mp h
  obtain ⟨led, sc₂, -, h⟩ := Attempt.bind_eq_ok.mp h
  cases led with
  | true =>
    obtain ⟨url, sc₃, -, h⟩ := Attempt.bind_eq_ok.mp h
    cases h
    exact .inl ⟨_, rfl, ledReason_ne_empty loggedIn url⟩
  | false =>
    simp only [Bool.false_eq_true, if_false] at h
    generalize Option.filter _ status = refused at h
    cases refused with
    | some n =>
      cases h
      have hstart : toString "HTTP " ≠ "" := by decide
      refine .inl ⟨_, rfl, ?_⟩
      simp [hstart]
    | none =>
      obtain ⟨shown, sc₃, hask, h⟩ := Attempt.bind_eq_ok.mp h
      cases h
      exact .inr ⟨shown, _, hask, rfl⟩

end Crawl

end Walkthrough
