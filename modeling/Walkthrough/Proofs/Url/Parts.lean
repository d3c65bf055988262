import Mathlib.Data.List.TakeWhile
import Mathlib.Tactic.ByContra
import Mathlib.Tactic.SplitIfs
import Walkthrough.Url
/-!
The parts of a URL. A URL that was read is written as a text that is read as that URL again, and
what is put behind a URL without marks goes to its path.
-/

namespace Walkthrough.Url

/-- A character that counts for nothing wherever it stands in a URL. -/
def isDropped (c : Char) : Bool := c == '\t' || c == '\r' || c == '\n'

/-- What stands before a query or a fragment. -/
def pathPart (s : List Char) : List Char := (splitFirst '?' (splitFirst '#' s).1).1

theorem pathPart_eq (s : List Char) :
    pathPart s = (s.takeWhile (· != '#')).takeWhile (· != '?') := rfl

/-- A mark ends a path. -/
def EndsPath (s : List Char) : Prop := ∀ c ∈ s.head?, c = '?' ∨ c = '#'

theorem pathPart_append {s r : List Char} (hs : ∀ c ∈ s, c ≠ '?' ∧ c ≠ '#') :
    pathPart (s ++ r) = s ++ pathPart r := by
  rw [pathPart_eq, List.takeWhile_append_of_pos (by simpa using fun c hc => (hs c hc).2),
    List.takeWhile_append_of_pos (by simpa using fun c hc => (hs c hc).1)]
  rfl

theorem pathPart_of_endsPath {r : List Char} (hr : EndsPath r) : pathPart r = [] := by
  cases r with
  | nil => rfl
  | cons c r =>
    rcases hr c rfl with rfl | rfl <;> simp [pathPart_eq]

theorem endsPath_marked (query fragment : List Char) :
    EndsPath (marked '?' query ++ marked '#' fragment) := by
  unfold marked
  cases query with
  | nil =>
    cases fragment with
    | nil => exact fun c hc => by cases hc
    | cons d f =>
      rintro c ⟨⟩
      exact .inr rfl
  | cons d q =>
    rintro c ⟨⟩
    exact .inl rfl

theorem EndsPath.filter {r : List Char} (hr : EndsPath r) : EndsPath (r.filter (!isDropped ·)) := by
  cases r with
  | nil => exact hr
  | cons c r =>
    have hc := hr c rfl
    have hkept : (!isDropped c) = true := by
      rcases hc with rfl | rfl <;> rfl
    rw [List.filter_cons, if_pos hkept]
    rintro d ⟨⟩
    exact hc

theorem pathPart_slash (r : List Char) : pathPart ('/' :: r) = '/' :: pathPart r :=
  pathPart_append (s := ['/']) (by simp)

theorem not_mark_of_mem_pathPart {s : List Char} {c : Char} (h : c ∈ pathPart s) :
    c ≠ '?' ∧ c ≠ '#' := by
  rw [pathPart_eq] at h
  have hq := List.mem_takeWhile_imp h
  have hf := List.mem_takeWhile_imp ((List.takeWhile_sublist _).subset h)
  exact ⟨by simpa using hq, by simpa using hf⟩

theorem mem_of_mem_pathPart {s : List Char} {c : Char} (h : c ∈ pathPart s) : c ∈ s :=
  (List.takeWhile_sublist _).subset ((List.takeWhile_sublist _).subset h)

/-- The path behind an authority is empty or begins with a slash. -/
theorem rooted_pathPart {r : List Char} (h : r.head?.all endsAuthority = true) :
    pathPart r = [] ∨ (pathPart r).head? = some '/' := by
  cases r with
  | nil => exact .inl rfl
  | cons c r =>
    by_cases hc : c = '/'
    · subst hc
      rw [pathPart_slash]
      exact .inr rfl
    · refine .inl (pathPart_of_endsPath ?_)
      rintro d ⟨⟩
      simpa [endsAuthority, hc] using h

/-- A mark and what is behind it are cut off in front of the mark. -/
theorem splitFirst_marked {mark : Char} {s : List Char} (h : mark ∉ s) (t : List Char) :
    splitFirst mark (s ++ marked mark t) = (s, t) := by
  have hs : ∀ c ∈ s, (c != mark) = true := by
    intro c hc
    rw [bne_iff_ne]
    rintro rfl
    exact h hc
  rw [splitFirst, List.takeWhile_append_of_pos hs, List.dropWhile_append_of_pos hs]
  cases t <;> simp [marked]

theorem mem_of_mem_splitFirst {mark : Char} {s : List Char} {c : Char}
    (h : c ∈ (splitFirst mark s).1 ∨ c ∈ (splitFirst mark s).2) : c ∈ s := by
  rcases h with h | h
  · exact (List.takeWhile_sublist _).subset h
  · exact (List.dropWhile_sublist _).subset ((List.drop_sublist _ _).subset h)

/-- What counts of a URL's text. -/
def kept (s : List Char) : List Char := (s.dropWhile isLeading).filter (!isDropped ·)

/-- The parts of a text all of which counts. -/
def partsOf (s : List Char) : Url :=
  let r := (splitAuthority (splitScheme s).2).2
  ⟨(splitScheme s).1, (splitAuthority (splitScheme s).2).1, pathPart r,
    (splitFirst '?' (splitFirst '#' r).1).2, (splitFirst '#' r).2⟩

theorem partsOf_eq {s scheme authority r t : List Char} (hs : splitScheme s = (scheme, t))
    (ha : splitAuthority t = (authority, r)) :
    partsOf s = ⟨scheme, authority, pathPart r, (splitFirst '?' (splitFirst '#' r).1).2,
      (splitFirst '#' r).2⟩ := by
  simp only [partsOf, hs, ha]

/-- A URL is read as its parts, if its authority is one. -/
theorem parse_eq_ok_iff {s : String} {u : Url} :
    Url.parse s = .ok u ↔ u = partsOf (kept s.toList) ∧
      authorityFault? u.authority = none ∧ u.authority.any hidesDelimiter = false := by
  have hkept : (s.toList.dropWhile isLeading).filter
      (fun c => !(c == '\t' || c == '\r' || c == '\n')) = kept s.toList := rfl
  unfold Url.parse
  simp only [hkept]
  constructor
  · intro h
    split at h
    · cases h
    · next hfault =>
      split_ifs at h with hhides
      cases h
      exact ⟨rfl, hfault, by simpa using hhides⟩
  · rintro ⟨rfl, hfault, hhides⟩
    unfold partsOf at hfault hhides
    simp only [hfault, hhides]
    rfl

/-- What may stand before the colon of a URL. -/
def isScheme (s : List Char) : Bool := s.head?.any Char.isAlpha && s.all isSchemeChar

theorem splitScheme_of_not_mem {s : List Char} (h : ':' ∉ s) : splitScheme s = ([], s) := by
  have hs : s.dropWhile (· != ':') = [] := by
    refine List.dropWhile_eq_nil_iff.mpr fun c hc => ?_
    rw [bne_iff_ne]
    rintro rfl
    exact h hc
  unfold splitScheme
  rw [hs]

theorem splitScheme_colon {s : List Char} (h : ':' ∉ s) (r : List Char) :
    splitScheme (s ++ ':' :: r) =
      if isScheme s then (s.map Char.toLower, r) else ([], s ++ ':' :: r) := by
  have hs : ∀ c ∈ s, (c != ':') = true := by
    intro c hc
    rw [bne_iff_ne]
    rintro rfl
    exact h hc
  unfold splitScheme
  rw [List.takeWhile_append_of_pos hs, List.dropWhile_append_of_pos hs]
  cases s with
  | nil => simp [isScheme]
  | cons c s => simp [isScheme]

/-- A text has no colon, or a first one. -/
theorem colon_cases (s : List Char) : ':' ∉ s ∨ ∃ a r, ':' ∉ a ∧ s = a ++ ':' :: r := by
  by_cases h : ':' ∈ s
  · obtain ⟨a, r, hs, ha⟩ := List.eq_append_cons_of_mem h
    exact .inr ⟨a, r, ha, hs⟩
  · exact .inl h

theorem toNat_of_isSchemeChar {c : Char} (h : isSchemeChar c = true) :
    43 ≤ c.toNat ∧ c.toNat < 128 := by
  simp only [isSchemeChar, isAlnum, Bool.or_eq_true, Bool.and_eq_true, decide_eq_true_eq,
    beq_iff_eq, Char.le_def, UInt32.le_iff_toNat_le] at h
  obtain (((((h | h) | h) | rfl) | rfl) | rfl) := h
  · change 65 ≤ c.toNat ∧ c.toNat ≤ 90 at h
    omega
  · change 97 ≤ c.toNat ∧ c.toNat ≤ 122 at h
    omega
  · change 48 ≤ c.toNat ∧ c.toNat ≤ 57 at h
    omega
  all_goals decide

/-- Small letters stay, and make a scheme of what is one. -/
theorem toLower_of_isSchemeChar {c : Char} (h : isSchemeChar c = true) :
    isSchemeChar c.toLower = true ∧ c.toLower.toLower = c.toLower ∧
      (c.isAlpha = true → c.toLower.isAlpha = true) := by
  have hall : ∀ n : Fin 128, isSchemeChar (Char.ofNat n) = true →
      isSchemeChar (Char.ofNat n).toLower = true ∧
      (Char.ofNat n).toLower.toLower = (Char.ofNat n).toLower ∧
      ((Char.ofNat n).isAlpha = true → (Char.ofNat n).toLower.isAlpha = true) := by decide
  have hn := hall ⟨c.toNat, (toNat_of_isSchemeChar h).2⟩
  rw [Char.ofNat_toNat] at hn
  exact hn h

theorem not_isLeading_of_isSchemeChar {c : Char} (h : isSchemeChar c = true) :
    isLeading c = false := by
  have hc := (toNat_of_isSchemeChar h).1
  rw [isLeading, decide_eq_false_iff_not]
  omega

/-- What counts at the start of a URL counts everywhere. -/
theorem isDropped_of_not_isLeading {c : Char} (h : isLeading c = false) : isDropped c = false := by
  by_contra hc
  simp only [isDropped, Bool.not_eq_false, Bool.or_eq_true, beq_iff_eq] at hc
  rcases hc with (rfl | rfl) | rfl <;> cases h

theorem isSchemeChar_of_mem {s : List Char} (h : isScheme s = true) :
    ∀ c ∈ s, isSchemeChar c = true :=
  List.all_eq_true.mp (Bool.and_eq_true_iff.mp h).2

theorem isScheme_map_toLower {s : List Char} (h : isScheme s = true) :
    isScheme (s.map Char.toLower) = true := by
  have hchars := isSchemeChar_of_mem h
  cases s with
  | nil => cases h
  | cons c s =>
    have hc : c.toLower.isAlpha = true :=
      (toLower_of_isSchemeChar (hchars c List.mem_cons_self)).2.2 (Bool.and_eq_true_iff.mp h).1
    have hall : ((c :: s).map Char.toLower).all isSchemeChar = true := by
      rw [List.all_map, List.all_eq_true]
      exact fun d hd => (toLower_of_isSchemeChar (hchars d hd)).1
    exact Bool.and_eq_true_iff.mpr ⟨hc, hall⟩

theorem ne_colon_of_isScheme {s : List Char} (h : isScheme s = true) : ':' ∉ s := by
  intro hc
  cases isSchemeChar_of_mem h _ hc

theorem splitScheme_slash (r : List Char) : splitScheme ('/' :: r) = ([], '/' :: r) := by
  rcases colon_cases ('/' :: r) with h | ⟨a, t, ha, hs⟩
  · exact splitScheme_of_not_mem h
  · have hraw : isScheme a = false := by
      cases a with
      | nil => rfl
      | cons c a =>
        cases hs
        rfl
    rw [hs, splitScheme_colon ha, hraw]
    rfl

/-- What is put behind a URL leaves its scheme as it is. -/
theorem splitScheme_append {s : List Char} (h : (splitScheme s).2.head? = some '/')
    (t : List Char) :
    splitScheme (s ++ t) = ((splitScheme s).1, (splitScheme s).2 ++ t) := by
  rcases colon_cases s with hs | ⟨a, r, ha, rfl⟩
  · rw [splitScheme_of_not_mem hs] at h ⊢
    obtain ⟨r, rfl⟩ : ∃ r, s = '/' :: r := List.head?_eq_some_iff.mp h
    exact splitScheme_slash (r ++ t)
  · rw [List.append_assoc, List.cons_append, splitScheme_colon ha, splitScheme_colon ha]
    split_ifs
    · rfl
    · rw [List.append_assoc, List.cons_append]

/-- A scheme that was read is one, in small letters. -/
theorem isScheme_splitScheme (s : List Char) :
    (splitScheme s).1 = [] ∨ isScheme (splitScheme s).1 = true ∧
      (splitScheme s).1.map Char.toLower = (splitScheme s).1 := by
  rcases colon_cases s with hs | ⟨a, r, ha, rfl⟩
  · rw [splitScheme_of_not_mem hs]
    exact .inl rfl
  · rw [splitScheme_colon ha]
    split_ifs with hraw
    · refine .inr ⟨isScheme_map_toLower hraw, ?_⟩
      rw [List.map_map]
      exact List.map_congr_left fun c hc =>
        (toLower_of_isSchemeChar (isSchemeChar_of_mem hraw c hc)).2.1
    · exact .inl rfl

theorem mem_of_mem_splitScheme {s : List Char} {c : Char} (h : c ∈ (splitScheme s).2) : c ∈ s := by
  rcases colon_cases s with hs | ⟨a, r, ha, rfl⟩
  · rwa [splitScheme_of_not_mem hs] at h
  · rw [splitScheme_colon ha] at h
    split_ifs at h
    · exact List.mem_append_right _ (List.mem_cons_of_mem _ h)
    · exact h

/-- An authority that is found stands behind two slashes and before the first mark of its end. -/
theorem splitAuthority_spec {s : List Char} (h : (splitAuthority s).1 ≠ []) :
    s = '/' :: '/' :: ((splitAuthority s).1 ++ (splitAuthority s).2) ∧
      (∀ c ∈ (splitAuthority s).1, endsAuthority c = false) ∧
      (splitAuthority s).2.head?.all endsAuthority = true := by
  unfold splitAuthority at h ⊢
  split at h
  · next r =>
    refine ⟨by rw [List.takeWhile_append_dropWhile], fun c hc => ?_, ?_⟩
    · simpa using List.mem_takeWhile_imp hc
    · have hhead := List.head?_dropWhile_not (!endsAuthority ·) r
      cases hd : (r.dropWhile (!endsAuthority ·)).head? with
      | none => rfl
      | some c =>
        rw [hd] at hhead
        simpa using hhead
  · exact absurd rfl h

/-- An authority reaches as far as its characters do. -/
theorem splitAuthority_append {a r : List Char} (ha : ∀ c ∈ a, endsAuthority c = false)
    (hr : r.head?.all endsAuthority = true) : splitAuthority ('/' :: '/' :: (a ++ r)) = (a, r) := by
  have hall : ∀ c ∈ a, (!endsAuthority c) = true := fun c hc => by rw [ha c hc]; rfl
  have htake : r.takeWhile (!endsAuthority ·) = [] ∧ r.dropWhile (!endsAuthority ·) = r := by
    cases r with
    | nil => exact ⟨rfl, rfl⟩
    | cons c r =>
      have hc : (!endsAuthority c) = false := by
        rw [show endsAuthority c = true from hr]
        rfl
      simp [hc]
  change ((a ++ r).takeWhile (!endsAuthority ·), (a ++ r).dropWhile (!endsAuthority ·)) = (a, r)
  rw [List.takeWhile_append_of_pos hall, List.dropWhile_append_of_pos hall, htake.1, htake.2,
    List.append_nil]

/-- A URL as it is read, with an authority: every character of its parts counts, and none of them
would have ended its part. -/
structure Clean (u : Url) : Prop where
  scheme : u.scheme = [] ∨ isScheme u.scheme = true ∧ u.scheme.map Char.toLower = u.scheme
  authority : u.authority ≠ []
  host : authorityFault? u.authority = none ∧ u.authority.any hidesDelimiter = false
  authorityChars : ∀ c ∈ u.authority, endsAuthority c = false ∧ isDropped c = false
  rooted : u.path = [] ∨ u.path.head? = some '/'
  pathChars : ∀ c ∈ u.path, (c ≠ '?' ∧ c ≠ '#') ∧ isDropped c = false
  queryChars : ∀ c ∈ u.query, c ≠ '#' ∧ isDropped c = false
  fragmentChars : ∀ c ∈ u.fragment, isDropped c = false

theorem clean_of_parse {s : String} {u : Url} (h : Url.parse s = .ok u) (ha : u.authority ≠ []) :
    u.Clean := by
  obtain ⟨rfl, hhost⟩ := parse_eq_ok_iff.mp h
  have hkept : ∀ c ∈ kept s.toList, isDropped c = false := by
    intro c hc
    simpa using (List.mem_filter.mp hc).2
  generalize kept s.toList = k at *
  obtain ⟨hr, hauthority, hends⟩ := splitAuthority_spec (s := (splitScheme k).2) ha
  have hrest : ∀ c ∈ (splitScheme k).2, isDropped c = false := fun c hc =>
    hkept c (mem_of_mem_splitScheme hc)
  rw [hr] at hrest
  simp only [List.forall_mem_cons, List.forall_mem_append] at hrest
  obtain ⟨-, -, hin, htail⟩ := hrest
  exact {
    scheme := isScheme_splitScheme k
    authority := ha
    host := hhost
    authorityChars := fun c hc => ⟨hauthority c hc, hin c hc⟩
    rooted := rooted_pathPart hends
    pathChars := fun c hc => ⟨not_mark_of_mem_pathPart hc, htail c (mem_of_mem_pathPart hc)⟩
    queryChars := fun c hc => by
      have hin := mem_of_mem_splitFirst (.inr hc)
      have hmark : c ≠ '#' := by simpa using List.mem_takeWhile_imp hin
      exact ⟨hmark, htail c (mem_of_mem_splitFirst (.inl hin))⟩
    fragmentChars := fun c hc => htail c (mem_of_mem_splitFirst (.inr hc)) }

/-- What a URL's text has in front of its authority. -/
def front (u : Url) : List Char := if u.scheme.isEmpty then [] else u.scheme ++ [':']

/-- What a URL's text has behind its authority. -/
def tail (u : Url) : List Char := u.path ++ (marked '?' u.query ++ marked '#' u.fragment)

namespace Clean

variable {u : Url} (h : u.Clean)

include h

theorem ends_tail : u.tail.head?.all endsAuthority = true := by
  rcases h.rooted with hp | hp
  · rw [tail, hp, List.nil_append]
    cases u.query <;> cases u.fragment <;> rfl
  · rw [tail, List.head?_append, hp]
    rfl

/-- A clean URL is written with all of its parts. -/
theorem toList_text : u.text.toList = u.front ++ '/' :: '/' :: (u.authority ++ u.tail) := by
  have ha : u.authority.isEmpty = false := by simpa using h.authority
  have hp : (!u.path.isEmpty && u.path.head? != some '/') = false := by
    rcases h.rooted with hp | hp
    · rw [hp]
      rfl
    · rw [hp]
      simp
  unfold Url.text place front tail
  simp [ha, hp]

theorem not_isDropped_of_mem_tail : ∀ c ∈ u.tail, isDropped c = false := by
  have hmarked {mark : Char} (hm : isDropped mark = false) {t : List Char}
      (ht : ∀ c ∈ t, isDropped c = false) : ∀ c ∈ marked mark t, isDropped c = false := by
    unfold marked
    split_ifs
    · simp
    · exact List.forall_mem_cons.mpr ⟨hm, ht⟩
  simp only [tail, List.forall_mem_append]
  exact ⟨fun c hc => (h.pathChars c hc).2, hmarked rfl fun c hc => (h.queryChars c hc).2,
    hmarked rfl h.fragmentChars⟩

theorem not_isLeading_of_mem_front : ∀ c ∈ u.front, isLeading c = false := by
  unfold front
  rcases h.scheme with hs | ⟨hs, -⟩
  · simp [hs]
  · split_ifs
    · simp
    · simp only [List.forall_mem_append, List.forall_mem_singleton]
      exact ⟨fun c hc => not_isLeading_of_isSchemeChar (isSchemeChar_of_mem hs c hc), rfl⟩

/-- Everything counts that is written for a clean URL. -/
theorem kept_text : kept u.text.toList = u.text.toList := by
  have hfront := h.not_isLeading_of_mem_front
  rw [h.toList_text]
  have hdrop : (u.front ++ '/' :: '/' :: (u.authority ++ u.tail)).dropWhile isLeading =
      u.front ++ '/' :: '/' :: (u.authority ++ u.tail) := by
    cases hf : u.front with
    | nil => rfl
    | cons c r =>
      rw [hf] at hfront
      exact List.dropWhile_cons_of_neg (by simp [hfront c List.mem_cons_self])
  have hall : ∀ c ∈ u.front ++ '/' :: '/' :: (u.authority ++ u.tail), isDropped c = false := by
    simp only [List.forall_mem_append, List.forall_mem_cons]
    exact ⟨fun c hc => isDropped_of_not_isLeading (hfront c hc), rfl, rfl,
      fun c hc => (h.authorityChars c hc).2, h.not_isDropped_of_mem_tail⟩
  rw [kept, hdrop, List.filter_eq_self]
  intro c hc
  rw [hall c hc]
  rfl

theorem splitScheme_text :
    splitScheme u.text.toList = (u.scheme, '/' :: '/' :: (u.authority ++ u.tail)) := by
  rw [h.toList_text, front]
  rcases h.scheme with hs | ⟨hs, hlower⟩
  · rw [hs]
    exact splitScheme_slash _
  · have hne : u.scheme.isEmpty = false := by
      cases hu : u.scheme with
      | nil =>
        rw [hu] at hs
        cases hs
      | cons c r => rfl
    rw [hne, if_neg (by simp), List.append_assoc, List.singleton_append,
      splitScheme_colon (ne_colon_of_isScheme hs), if_pos hs, hlower]

/-- What is written for a clean URL is read as that URL. -/
theorem parse_text : Url.parse u.text = .ok u := by
  have hauthority := splitAuthority_append (fun c hc => (h.authorityChars c hc).1) h.ends_tail
  have hq : '?' ∉ u.path := fun hc => (h.pathChars _ hc).1.1 rfl
  have hf : '#' ∉ u.path ++ marked '?' u.query := by
    rw [List.mem_append, not_or]
    refine ⟨fun hc => (h.pathChars _ hc).1.2 rfl, ?_⟩
    unfold marked
    split_ifs
    · simp
    · rw [List.mem_cons, not_or]
      exact ⟨by decide, fun hc => (h.queryChars _ hc).1 rfl⟩
  refine parse_eq_ok_iff.mpr ⟨?_, h.host⟩
  rw [h.kept_text, partsOf_eq h.splitScheme_text hauthority, tail, ← List.append_assoc,
    pathPart, splitFirst_marked hf, splitFirst_marked hq]

end Clean

/-- What follows a text without marks belongs to its path. -/
theorem partsOf_append {s t : List Char} (ha : (partsOf s).authority ≠ [])
    (hs : ∀ c ∈ s, c ≠ '?' ∧ c ≠ '#') (ht : t.head? = some '/') :
    ∃ query fragment, partsOf (s ++ t) = ⟨(partsOf s).scheme, (partsOf s).authority,
      (partsOf s).path ++ pathPart t, query, fragment⟩ := by
  obtain ⟨hr, hauthority, hends⟩ := splitAuthority_spec (s := (splitScheme s).2) ha
  have hown : ∀ c ∈ (splitAuthority (splitScheme s).2).2, c ≠ '?' ∧ c ≠ '#' := by
    intro c hc
    refine hs c (mem_of_mem_splitScheme ?_)
    rw [hr]
    simp [hc]
  have hpath : (partsOf s).path = (splitAuthority (splitScheme s).2).2 := by
    have hall := pathPart_append (r := []) hown
    rw [List.append_nil] at hall
    exact hall.trans (List.append_nil _)
  have hscheme : splitScheme (s ++ t) = ((splitScheme s).1, (splitScheme s).2 ++ t) :=
    splitScheme_append (by rw [hr]; rfl) t
  have hsplit : splitAuthority ((splitScheme s).2 ++ t) = ((splitAuthority (splitScheme s).2).1,
      (splitAuthority (splitScheme s).2).2 ++ t) := by
    refine Eq.trans ?_ (splitAuthority_append hauthority ?_)
    · rw [← List.append_assoc, ← List.cons_append, ← List.cons_append, ← hr]
    · rw [List.head?_append, ht]
      cases hd : (splitAuthority (splitScheme s).2).2.head? with
      | none => rfl
      | some c => rwa [hd] at hends
  have hparts := partsOf_eq hscheme hsplit
  rw [pathPart_append hown, ← hpath] at hparts
  exact ⟨_, _, hparts⟩

/-- What is put behind a URL without marks goes to its path. -/
theorem parse_append {s t : String} {u : Url} (h : Url.parse s = .ok u) (ha : u.authority ≠ [])
    (hs : ∀ c ∈ s.toList, c ≠ '?' ∧ c ≠ '#') (ht : t.toList.head? = some '/') :
    ∃ query fragment, Url.parse (s ++ t) = .ok ⟨u.scheme, u.authority,
      u.path ++ pathPart (t.toList.filter (!isDropped ·)), query, fragment⟩ := by
  obtain ⟨rfl, hhost⟩ := parse_eq_ok_iff.mp h
  have hmarks : ∀ c ∈ kept s.toList, c ≠ '?' ∧ c ≠ '#' := fun c hc =>
    hs c ((List.dropWhile_sublist _).subset (List.mem_filter.mp hc).1)
  have hhead : (t.toList.filter (!isDropped ·)).head? = some '/' := by
    obtain ⟨r, hr⟩ : ∃ r, t.toList = '/' :: r := List.head?_eq_some_iff.mp ht
    rw [hr]
    rfl
  have hkept : kept (s ++ t).toList = kept s.toList ++ t.toList.filter (!isDropped ·) := by
    have hdrop : (s.toList.dropWhile isLeading).isEmpty = false := by
      rw [List.isEmpty_eq_false_iff]
      intro hnil
      rw [kept, hnil] at ha
      exact ha rfl
    rw [kept, kept, String.toList_append, List.dropWhile_append, hdrop, if_neg (by simp),
      List.filter_append]
  obtain ⟨query, fragment, hparts⟩ := partsOf_append ha hmarks hhead
  rw [← hkept] at hparts
  exact ⟨query, fragment, parse_eq_ok_iff.mpr ⟨hparts.symm, hhost⟩⟩

end Walkthrough.Url
