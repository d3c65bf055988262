import Mathlib.Data.List.DropRight
import Mathlib.Tactic.SplitIfs
import Walkthrough.Proofs.Except
import Walkthrough.Proofs.Text.Lines
import Walkthrough.Proofs.Url.Parts
import Walkthrough.Url.Route
/-!
Where an app is mounted. The URL of a route leads to the app's place on its host and, behind that,
to what is left of the route's path when its dynamic segments are filled.
-/

namespace Walkthrough

namespace Text

/-- Nothing of a text is cut off before all of what follows it has been. -/
theorem stripEnd_append (p : Char → Bool) (s t : List Char) :
    stripEnd p (s ++ t) = if stripEnd p t = [] then stripEnd p s else s ++ stripEnd p t := by
  unfold stripEnd
  rw [List.reverse_append, List.dropWhile_append]
  by_cases ht : t.reverse.dropWhile p = []
  · simp [ht]
  · simp [ht]

theorem stripEnd_of_getLast? {sep : Char} {s : List Char} (h : s.getLast? ≠ some sep) :
    stripEnd (· == sep) s = s := by
  refine List.rdropWhile_eq_self_iff.mpr fun hne hlast => ?_
  rw [beq_iff_eq] at hlast
  exact h (hlast ▸ List.getLast?_eq_some_getLast hne)

end Text

/-- Filling its segments leaves a path at the root. -/
theorem head?_fillSegments {path : String} (h : path.toList.head? = some '/') :
    (fillSegments path).toList.head? = some '/' := by
  obtain ⟨r, hr⟩ : ∃ r, path.toList = '/' :: r := List.head?_eq_some_iff.mp h
  have hpieces : Text.pieces '/' path.toList = [] :: Text.pieces '/' r := by
    rw [hr]
    exact Text.pieces_append_cons (List.not_mem_nil) r
  obtain ⟨t, ts, ht⟩ := List.exists_cons_of_ne_nil (Text.pieces_ne_nil '/' r)
  unfold fillSegments String.pieces
  rw [hpieces, ht]
  have hempty : isDynamic [] = false := by decide
  simp [hempty, String.intercalate_cons_of_ne_nil]

open Url

/-- A path that is visited as it stands. -/
structure IsLiteral (path : String) : Prop where
  filled : fillSegments path = path
  plain : ∀ c ∈ path.toList, c ≠ '?' ∧ c ≠ '#' ∧ isDropped c = false

/-- An app's place: a scheme, a host, and the path under which the app is on the host. -/
structure Mount where
  scheme : List Char
  host : List Char
  path : List Char

namespace Mount

structure WellFormed (m : Mount) : Prop where
  scheme : m.scheme = "http".toList ∨ m.scheme = "https".toList
  host : m.host ≠ []
  hostChars : ∀ c ∈ m.host, endsAuthority c = false ∧ c ≠ '[' ∧ c ≠ ']' ∧
    hidesDelimiter c = false ∧ isDropped c = false
  pathChars : ∀ c ∈ m.path, c ≠ '?' ∧ c ≠ '#' ∧ isDropped c = false
  rooted : m.path = [] ∨ m.path.head? = some '/'
  bare : m.path.getLast? ≠ some '/'

def origin (m : Mount) : List Char := m.scheme ++ "://".toList ++ m.host

/-- The app's base URL, with any number of slashes at its end. -/
def base (m : Mount) (slashes : Nat) : String :=
  String.ofList (m.origin ++ m.path ++ List.replicate slashes '/')

/-- The path that is seen when a route is visited: the app's place, and what is left of the route's
path when its dynamic segments are filled. -/
def shownPath (m : Mount) (path : String) : List Char :=
  m.path ++ pathPart ((fillSegments path).toList.filter (!isDropped ·))

theorem shownPath_of_isLiteral (m : Mount) {path : String} (h : IsLiteral path) :
    m.shownPath path = m.path ++ path.toList := by
  have hkept : path.toList.filter (!isDropped ·) = path.toList := by
    rw [List.filter_eq_self]
    intro c hc
    rw [(h.plain c hc).2.2]
    rfl
  have hmarks : pathPart (path.toList ++ []) = path.toList ++ pathPart [] :=
    pathPart_append fun c hc => ⟨(h.plain c hc).1, (h.plain c hc).2.1⟩
  have hend : pathPart [] = [] := rfl
  rw [hend, List.append_nil] at hmarks
  rw [shownPath, h.filled, hkept, hmarks]

namespace WellFormed

variable {m : Mount} (h : m.WellFormed)

include h

theorem splitScheme_scheme (r : List Char) :
    splitScheme (m.scheme ++ ':' :: r) = (m.scheme, r) := by
  rcases h.scheme with hs | hs <;> rw [hs] <;> rfl

theorem splitAuthority_host {tail : List Char} (ht : tail.head? = some '/') :
    splitAuthority ('/' :: '/' :: m.host ++ tail) = (m.host, tail) := by
  obtain ⟨r, rfl⟩ : ∃ r, tail = '/' :: r := List.head?_eq_some_iff.mp ht
  have hhost : ∀ c ∈ m.host, (!endsAuthority c) = true := by
    intro c hc
    rw [(h.hostChars c hc).1]
    rfl
  have hslash : (!endsAuthority '/') = false := rfl
  change ((m.host ++ '/' :: r).takeWhile (!endsAuthority ·),
    (m.host ++ '/' :: r).dropWhile (!endsAuthority ·)) = _
  rw [List.takeWhile_append_of_pos hhost, List.dropWhile_append_of_pos hhost]
  simp [hslash]

theorem authorityFault?_host : authorityFault? m.host = none := by
  have hleft : m.host.contains '[' = false := by
    simpa using fun hc => (h.hostChars _ hc).2.1 rfl
  have hright : m.host.contains ']' = false := by
    simpa using fun hc => (h.hostChars _ hc).2.2.1 rfl
  rw [authorityFault?, hleft, hright]

/-- Nothing at the start of an app's URL or in its host is dropped. -/
theorem kept_origin (tail : List Char) :
    ((m.origin ++ tail).dropWhile isLeading).filter (!isDropped ·) =
      m.scheme ++ ':' :: ('/' :: '/' :: m.host ++ tail.filter (!isDropped ·)) := by
  have hhost : m.host.filter (!isDropped ·) = m.host := by
    rw [List.filter_eq_self]
    intro c hc
    rw [(h.hostChars c hc).2.2.2.2]
    rfl
  have hscheme : (m.origin ++ tail).dropWhile isLeading = m.origin ++ tail ∧
      m.scheme.filter (!isDropped ·) = m.scheme := by
    rcases h.scheme with hs | hs <;> rw [origin, hs] <;> exact ⟨rfl, rfl⟩
  rw [hscheme.1, origin, List.filter_append, List.filter_append, List.filter_append, hscheme.2,
    hhost]
  simp [isDropped]

/-- A URL on the app's host is read as such. -/
theorem parse_origin {tail : List Char} (ht : tail.head? = some '/') :
    ∃ query fragment, Url.parse (String.ofList (m.origin ++ tail)) =
      .ok ⟨m.scheme, m.host, pathPart (tail.filter (!isDropped ·)), query, fragment⟩ := by
  have hhead : (tail.filter (!isDropped ·)).head? = some '/' := by
    obtain ⟨r, rfl⟩ : ∃ r, tail = '/' :: r := List.head?_eq_some_iff.mp ht
    rfl
  have hhides : m.host.any hidesDelimiter = false := by
    simpa using fun c hc => (h.hostChars c hc).2.2.2.1
  have hkept := h.kept_origin tail
  have hauthority := h.splitAuthority_host hhead
  simp only [isDropped] at hkept hauthority
  unfold Url.parse
  simp only [String.toList_ofList, hkept, h.splitScheme_scheme, hauthority,
    h.authorityFault?_host, hhides]
  exact ⟨_, _, rfl⟩

/-- No slash of an app's base URL counts for more than the app's place. -/
theorem withoutFinalSlashes_base (slashes : Nat) :
    (m.base slashes).withoutFinalSlashes = String.ofList (m.origin ++ m.path) := by
  have hend : (m.origin ++ m.path).getLast? ≠ some '/' := by
    intro hc
    rw [List.getLast?_append, origin, List.getLast?_append] at hc
    rcases hp : m.path.getLast? with _ | d
    · rcases hh : m.host.getLast? with _ | d
      · exact h.host (List.getLast?_eq_none_iff.mp hh)
      · rw [hp, hh] at hc
        cases hc
        have hd := (h.hostChars '/' (List.mem_of_getLast? hh)).1
        cases hd
    · rw [hp] at hc
      cases hc
      exact h.bare hp
  have hslashes : Text.stripEnd (· == '/') (List.replicate slashes '/') = [] := by
    refine List.rdropWhile_eq_nil_iff.mpr fun c hc => ?_
    rw [List.eq_of_mem_replicate hc]
    rfl
  unfold String.withoutFinalSlashes
  rw [base, String.toList_ofList, Text.stripEnd_append, if_pos hslashes,
    Text.stripEnd_of_getLast? hend]

theorem filter_path : m.path.filter (!isDropped ·) = m.path := by
  rw [List.filter_eq_self]
  intro c hc
  rw [(h.pathChars c hc).2.2]
  rfl

/-- In what follows an app's host, the path is the app's place and what comes before a mark. -/
theorem pathPart_tail (tail : List Char) :
    pathPart ((m.path ++ tail).filter (!isDropped ·)) =
      m.path ++ pathPart (tail.filter (!isDropped ·)) := by
  rw [List.filter_append, h.filter_path, pathPart_append]
  exact fun c hc => ⟨(h.pathChars c hc).1, (h.pathChars c hc).2.1⟩

theorem head?_shownPath {path : String} (hp : path.toList.head? = some '/') :
    (m.shownPath path).head? = some '/' := by
  unfold shownPath
  rcases h.rooted with hr | hr
  · obtain ⟨r, hr'⟩ : ∃ r, (fillSegments path).toList = '/' :: r :=
      List.head?_eq_some_iff.mp (head?_fillSegments hp)
    rw [hr, hr', List.nil_append]
    rfl
  · rw [List.head?_append, hr]
    rfl

theorem text_origin {path query fragment : List Char} (hp : path.head? = some '/') :
    Url.text ⟨m.scheme, m.host, path, query, fragment⟩ =
      String.ofList (m.origin ++ (path ++ (marked '?' query ++ marked '#' fragment))) := by
  have hscheme : m.scheme.isEmpty = false := by
    rcases h.scheme with hs | hs <;> rw [hs] <;> rfl
  have hhost : m.host.isEmpty = false := by
    simpa using h.host
  have hpath : path.isEmpty = false := by
    cases path with
    | nil => cases hp
    | cons c r => rfl
  unfold Url.text place
  simp [hscheme, hhost, hpath, hp, origin]

/-- The URL of a route leads to the app's place and the route's path behind it. -/
theorem routeUrl_base (slashes : Nat) {path : String} (hp : path.toList.head? = some '/') :
    ∃ rest, EndsPath rest ∧ routeUrl (m.base slashes) path =
      .ok (String.ofList (m.origin ++ (m.shownPath path ++ rest))) := by
  have htail : (m.path ++ (fillSegments path).toList).head? = some '/' := by
    rcases h.rooted with hr | hr
    · rw [hr, List.nil_append]
      exact head?_fillSegments hp
    · rw [List.head?_append, hr]
      rfl
  have hurl : (m.base slashes).withoutFinalSlashes ++ fillSegments path =
      String.ofList (m.origin ++ (m.path ++ (fillSegments path).toList)) := by
    rw [h.withoutFinalSlashes_base, ← String.toList_inj]
    simp
  obtain ⟨query, fragment, hparse⟩ := h.parse_origin htail
  rw [h.pathPart_tail] at hparse
  have hrest := endsPath_marked
    (Url.ofPairs ((Url.pairs query).filter (·.1 != tourFlag) ++ [(tourFlag, ['1'])])) fragment
  refine ⟨_, hrest, ?_⟩
  unfold routeUrl flagTour
  dsimp only
  rw [if_pos rfl, hurl, hparse, ok_bind]
  exact congrArg _ (h.text_origin (h.head?_shownPath hp))

theorem leadsTo_routeUrl {slashes : Nat} {path url : String} (hp : path.toList.head? = some '/')
    (hu : routeUrl (m.base slashes) path = .ok url) (other : String) :
    leadsTo url other = .ok (Text.stripEnd (· == '/') (m.shownPath path) ==
      Text.stripEnd (· == '/') other.toList) := by
  obtain ⟨rest, hrest, hurl⟩ := h.routeUrl_base slashes hp
  rw [hurl] at hu
  cases hu
  have hhead : (m.shownPath path ++ rest).head? = some '/' := by
    rw [List.head?_append, h.head?_shownPath hp]
    rfl
  obtain ⟨query, fragment, hparse⟩ := h.parse_origin hhead
  unfold leadsTo
  rw [hparse, ok_bind]
  have hown : (pathPart ((fillSegments path).toList.filter (!isDropped ·))).filter (!isDropped ·) =
      pathPart ((fillSegments path).toList.filter (!isDropped ·)) := by
    rw [List.filter_eq_self]
    exact fun c hc => (List.mem_filter.mp (mem_of_mem_pathPart hc)).2
  have hpath : pathPart ((m.shownPath path ++ rest).filter (!isDropped ·)) = m.shownPath path := by
    rw [shownPath, List.append_assoc, h.pathPart_tail, List.filter_append, hown,
      pathPart_append fun c hc => not_mark_of_mem_pathPart hc,
      pathPart_of_endsPath hrest.filter, List.append_nil]
  rw [hpath]

/-- An app's place tells its pages from the routes they are configured as, unless it is the root. -/
theorem shownPath_iff_of_isLiteral {path : String} (hl : IsLiteral path) :
    Text.stripEnd (· == '/') (m.shownPath path) = Text.stripEnd (· == '/') path.toList ↔
      m.path = [] := by
  rw [m.shownPath_of_isLiteral hl, Text.stripEnd_append, Text.stripEnd_of_getLast? h.bare]
  by_cases hp : Text.stripEnd (· == '/') path.toList = []
  · rw [if_pos hp, hp]
  · rw [if_neg hp, List.append_left_eq_self]

end WellFormed

end Mount

end Walkthrough
