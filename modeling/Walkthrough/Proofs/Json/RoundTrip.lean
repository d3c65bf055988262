import Walkthrough.Proofs.Json.Scalar
/-!
Documents read back: the reader gives for what the writer made of a value that value again.
-/

namespace Walkthrough.Json

mutual
/-- Numbers in a value read back, no key of an object stands twice, and there is room for its lists
and objects, nested in each other. -/
def Plain (room : Nat) : Json → Prop
  | num n => ReadsBack n
  | arr vs => match room with
    | 0 => False
    | room + 1 => PlainItems room vs
  | obj ms => match room with
    | 0 => False
    | room + 1 => (ms.map (·.1)).Nodup ∧ PlainMembers room ms
  | _ => True

/-- All values of a list are plain. -/
def PlainItems (room : Nat) : List Json → Prop
  | [] => True
  | v :: vs => Plain room v ∧ PlainItems room vs

/-- All values of some members are plain. -/
def PlainMembers (room : Nat) : List (String × Json) → Prop
  | [] => True
  | (_, v) :: ms => Plain room v ∧ PlainMembers room ms
end

variable {room : Nat}

@[simp] theorem plain_str (s : String) : (str s).Plain room := by simp [Plain]

@[simp] theorem plain_bool (b : Bool) : (bool b).Plain room := by simp [Plain]

@[simp] theorem plain_num {n : Number} : (num n).Plain room ↔ ReadsBack n := by simp [Plain]

@[simp] theorem plain_arr {vs : List Json} : (arr vs).Plain (room + 1) ↔ PlainItems room vs := by
  simp [Plain]

@[simp] theorem plain_obj {ms : Members} :
    (obj ms).Plain (room + 1) ↔ (ms.map (·.1)).Nodup ∧ PlainMembers room ms := by
  simp [Plain]

theorem plainItems_iff {vs : List Json} : PlainItems room vs ↔ ∀ v ∈ vs, v.Plain room := by
  induction vs with
  | nil => simp [PlainItems]
  | cons v vs ih => simp [PlainItems, ih]

theorem plainMembers_iff {ms : Members} : PlainMembers room ms ↔ ∀ m ∈ ms, m.2.Plain room := by
  induction ms with
  | nil => simp [PlainMembers]
  | cons m ms ih => simp [PlainMembers, ih]

theorem put_of_not_mem {ms : Members} {key : String} (h : key ∉ ms.map (·.1)) (v : Json) :
    ms.put key v = ms ++ [(key, v)] := by
  induction ms with
  | nil => rfl
  | cons m ms ih =>
    obtain ⟨k, w⟩ := m
    simp only [List.map_cons, List.mem_cons, not_or] at h
    rw [Members.put, if_neg (Ne.symm h.1), ih h.2, List.cons_append]

theorem skip_cons {c : Char} (h : isSpace c = false) (r : List Char) : skip (c :: r) = c :: r := by
  rw [skip, List.dropWhile_cons_of_neg (by simp [h])]

theorem skip_lead (st : Style) (r : List Char) : skip (st.lead ++ r) = skip r := by
  cases st with
  | oneLine => rfl
  | indented d =>
    have hs : ∀ n, skip (List.replicate n ' ' ++ r) = skip r := by
      intro n
      induction n with
      | zero => rfl
      | succ n ih => rw [List.replicate_succ, List.cons_append, ← ih]; rfl
    exact hs (2 * d)

/-- What separates two items behind their comma. -/
def Style.gap : Style → List Char
  | oneLine => [' ']
  | indented d => (indented d).lead

theorem Style.between_eq (st : Style) : st.between = ',' :: st.gap := by cases st <;> rfl

theorem skip_gap (st : Style) (r : List Char) : skip (st.gap ++ r) = skip r := by
  cases st with
  | oneLine => rfl
  | indented d => exact skip_lead (.indented d) r

theorem stops_of_head {c : Char} (h : isAsciiDigit c = false ∧ c ≠ '.' ∧ c ≠ 'e' ∧ c ≠ 'E')
    (r : List Char) : Stops (c :: r) := by
  rintro d hd
  cases hd
  exact h

theorem stops_lead (st : Style) {r : List Char} (h : Stops r) : Stops (st.lead ++ r) := by
  cases st with
  | oneLine => exact h
  | indented d => exact stops_of_head (by decide) _

theorem stops_between (st : Style) (r : List Char) : Stops (st.between ++ r) := by
  rw [st.between_eq]
  exact stops_of_head (by decide) _

theorem skip_between (st : Style) (r : List Char) :
    skip (st.between ++ r) = ',' :: (st.gap ++ r) := by
  rw [st.between_eq, List.cons_append, skip_cons (by decide)]

/-- The characters a number starts with. -/
def StartsNumber (c : Char) : Prop := isAsciiDigit c = true ∨ c = '-' ∨ c = 'N' ∨ c = 'I'

theorem number_head {s r : List Char} {n : Number} (h : number s = .ok (n, r)) :
    ∃ c t, s = c :: t ∧ StartsNumber c := by
  cases s with
  | nil => cases h
  | cons c t =>
    refine ⟨c, t, rfl, ?_⟩
    by_contra hc
    simp only [StartsNumber, not_or, Bool.not_eq_true] at hc
    obtain ⟨h1, h2, h3, h4⟩ := hc
    unfold number at h
    split at h
    · next he => cases he; exact h2 rfl
    · rw [if_neg (by simp [List.isPrefixOf, Ne.symm h3]),
        if_neg (by simp [List.isPrefixOf, Ne.symm h4]), unsigned?_eq_none h1] at h
      cases h

theorem ReadsBack.head {n : Number} (h : ReadsBack n) :
    ∃ c t, writeNumber n = c :: t ∧ StartsNumber c := by
  have := number_head (h.reads [] (fun c hc => by cases hc))
  rwa [List.append_nil] at this

theorem value_number {n : Number} {c : Char} {s r : List Char} (hc : StartsNumber c)
    (h : number (c :: s) = .ok (n, r)) (room fuel : Nat) :
    value none room (fuel + 1) (c :: s) = .ok (.num n, r) := by
  unfold value
  split
  case h_7 => rw [h]; rfl
  all_goals
    next he =>
    cases he
    rcases hc with hc | hc | hc | hc <;> cases hc

/-- A written value starts with no blank, no closing bracket and no byte order mark. -/
theorem write_head (st : Style) {v : Json} (h : v.Plain room) :
    ∃ c t, write st v = c :: t ∧ isSpace c = false ∧ c ≠ ']' ∧ c ≠ '\uFEFF' := by
  match v with
  | null => exact ⟨'n', _, rfl, by decide⟩
  | bool true => exact ⟨'t', _, rfl, by decide⟩
  | bool false => exact ⟨'f', _, rfl, by decide⟩
  | str _ => exact ⟨'"', _, rfl, by decide⟩
  | arr [] => exact ⟨'[', _, rfl, by decide⟩
  | arr (_ :: _) => exact ⟨'[', _, rfl, by decide⟩
  | obj [] => exact ⟨'\x7b', _, rfl, by decide⟩
  | obj (_ :: _) => exact ⟨'\x7b', _, rfl, by decide⟩
  | num n =>
    obtain ⟨c, t, he, hc⟩ := ReadsBack.head (plain_num.mp h)
    refine ⟨c, t, he, ?_⟩
    rcases hc with hc | rfl | rfl | rfl
    · have hs : ∀ d ∈ [' ', '\t', '\n', '\r', ']', '\uFEFF'], d ≠ c := by
        rintro d hd rfl
        simp only [List.mem_cons, List.not_mem_nil, or_false] at hd
        rcases hd with rfl | rfl | rfl | rfl | rfl | rfl <;> cases hc
      simp only [List.mem_cons, List.not_mem_nil, or_false, forall_eq_or_imp, forall_eq] at hs
      obtain ⟨h1, h2, h3, h4, h5, h6⟩ := hs
      exact ⟨by simp [isSpace, Ne.symm h1, Ne.symm h2, Ne.symm h3, Ne.symm h4], Ne.symm h5,
        Ne.symm h6⟩
    · decide
    · decide
    · decide

theorem skip_write (st : Style) {v : Json} (h : v.Plain room) (r : List Char) :
    skip (write st v ++ r) = write st v ++ r := by
  obtain ⟨c, t, he, hc, -⟩ := write_head st h
  rw [he, List.cons_append, skip_cons hc]

/-- Reading with some fuel gives every plain value back that is written with no more characters. -/
def ReadsValues (fuel : Nat) : Prop :=
  ∀ (room : Nat) (st : Style) (v : Json) (r : List Char), v.Plain room →
    (write st v).length ≤ fuel → Stops r → value none room fuel (write st v ++ r) = .ok (v, r)

/-- The same for the values of a list and what closes it. -/
def ReadsItems (fuel : Nat) : Prop :=
  ∀ (room : Nat) (st : Style) (v : Json) (vs : List Json) (tail r : List Char), v.Plain room →
    PlainItems room vs → (write st v ++ writeItems st vs).length < fuel → Stops tail →
    skip tail = ']' :: r →
    items none room fuel (write st v ++ (writeItems st vs ++ tail)) = .ok (v :: vs, r)

/-- The same for the members of an object, after some that were read. -/
def ReadsMembers (fuel : Nat) : Prop :=
  ∀ (room : Nat) (st : Style) (before : Members) (k : String) (v : Json) (ms : Members)
    (tail r : List Char),
    ((before ++ (k, v) :: ms).map (·.1)).Nodup → v.Plain room → PlainMembers room ms →
    (writeText k ++ write st v ++ writeMembers st ms).length < fuel → Stops tail →
    skip tail = '\x7d' :: r →
    members none room fuel before
        (writeText k ++ (':' :: ' ' :: (write st v ++ (writeMembers st ms ++ tail)))) =
      .ok (before ++ (k, v) :: ms, r)

theorem readsItems_succ {fuel : Nat} (hv : ReadsValues fuel) (hi : ReadsItems fuel) :
    ReadsItems (fuel + 1) := by
  intro room st v vs tail r pv pvs hl ht hs
  rw [items]
  cases vs with
  | nil =>
    rw [writeItems, List.append_nil] at hl
    rw [writeItems, List.nil_append, hv room st v tail pv (by omega) ht]
    simp only [bind, Except.bind, hs]
  | cons w ws =>
    obtain ⟨pw, pws⟩ := pvs
    simp only [writeItems, List.append_assoc, List.length_append, st.between_eq,
      List.length_cons] at hl
    have hr := hi room st w ws tail r pw pws (by rw [List.length_append]; omega) ht hs
    simp only [writeItems, List.append_assoc]
    rw [hv room st v _ pv (by omega) (stops_between st _)]
    simp only [bind, Except.bind, skip_between, skip_gap]
    rw [skip_write st pw, hr]

theorem chars_writeText {half : Option Char} (k : String) (o r : List Char) :
    chars half o (k.toList.flatMap escapeChar ++ '"' :: r) = .ok (k.toList, r) :=
  chars_flatMap_escapeChar o k.toList r

theorem readsMembers_succ {fuel : Nat} (hv : ReadsValues fuel) (hm : ReadsMembers fuel) :
    ReadsMembers (fuel + 1) := by
  intro room st before k v ms tail r hn pv pms hl ht hs
  have hk : k ∉ before.map (·.1) := by
    intro hk
    rw [List.map_append, List.nodup_append] at hn
    exact hn.2.2 k hk k (by simp) rfl
  simp only [writeText, List.append_assoc, List.cons_append, List.nil_append]
  rw [members, chars_writeText]
  simp only [bind, Except.bind, skip_cons (show isSpace ':' = false by decide),
    String.ofList_toList]
  rw [show ∀ x, skip (' ' :: x) = skip x from fun _ => rfl, skip_write st pv]
  cases ms with
  | nil =>
    simp only [writeMembers, List.append_nil, List.length_append] at hl
    rw [writeMembers, List.nil_append, hv room st v tail pv (by omega) ht]
    simp only [hs, put_of_not_mem hk]
  | cons m ms =>
    obtain ⟨l, w⟩ := m
    obtain ⟨pw, pws⟩ := pms
    simp only [writeMembers, List.append_assoc, List.length_append, st.between_eq,
      List.length_cons] at hl
    have hr := hm room st (before ++ [(k, v)]) l w ms tail r (by simpa using hn) pw pws
      (by simp only [List.length_append]; omega) ht hs
    simp only [writeMembers, List.append_assoc, List.cons_append, List.nil_append]
    rw [hv room st v _ pv (by omega) (stops_between st _)]
    simp only [skip_between, skip_gap, put_of_not_mem hk]
    simp only [writeText, List.append_assoc, List.cons_append, List.nil_append] at hr ⊢
    rw [skip_cons (by decide), hr]

theorem readsValues_succ {fuel : Nat} (hi : ReadsItems fuel) (hm : ReadsMembers fuel) :
    ReadsValues (fuel + 1) := by
  intro room st v r pv hl hr
  match v with
  | null => rfl
  | bool true => rfl
  | bool false => rfl
  | num n =>
    rw [plain_num] at pv
    obtain ⟨c, t, he, hc⟩ := pv.head
    have hn := pv.reads r hr
    change value _ _ _ (writeNumber n ++ r) = _
    rw [he, List.cons_append] at hn ⊢
    exact value_number hc hn room fuel
  | str s =>
    simp only [write, writeText, List.append_assoc, List.cons_append, List.nil_append]
    rw [value, chars_writeText]
    simp only [bind, Except.bind, String.ofList_toList]
  | arr vs =>
    obtain _ | room := room
    · simp [Plain] at pv
    rw [plain_arr] at pv
    cases vs with
    | nil => rfl
    | cons v vs =>
    obtain ⟨pv, pvs⟩ := pv
    simp only [write, List.append_assoc, List.cons_append, List.nil_append, List.length_cons,
      List.length_append] at hl ⊢
    have hi := hi room st.deeper v vs (st.lead ++ ']' :: r) r pv pvs
      (by rw [List.length_append]; simp only [List.length_nil] at hl; omega)
      (stops_lead st (stops_of_head (by decide) r)) (by rw [skip_lead]; rfl)
    rw [value, skip_lead, skip_write st.deeper pv]
    obtain ⟨c, t, he, -, hc, -⟩ := write_head st.deeper pv
    rw [he, List.cons_append] at hi ⊢
    split
    · next h => cases h; exact absurd rfl hc
    · rw [hi]; rfl
  | obj ms =>
    obtain _ | room := room
    · simp [Plain] at pv
    rw [plain_obj] at pv
    cases ms with
    | nil => rfl
    | cons m ms =>
    obtain ⟨k, v⟩ := m
    obtain ⟨hn, pv, pms⟩ := pv
    simp only [write, List.append_assoc, List.cons_append, List.nil_append, List.length_cons,
      List.length_append] at hl ⊢
    have hm := hm room st.deeper [] k v ms (st.lead ++ '\x7d' :: r) r hn pv pms
      (by simp only [List.length_append]; simp only [List.length_nil] at hl; omega)
      (stops_lead st (stops_of_head (by decide) r)) (by rw [skip_lead]; rfl)
    rw [value, skip_lead]
    simp only [writeText, List.append_assoc, List.cons_append, List.nil_append] at hm ⊢
    rw [skip_cons (by decide)]
    split
    · next h => cases h
    · rw [hm]; rfl

theorem reads (fuel : Nat) : ReadsValues fuel ∧ ReadsItems fuel ∧ ReadsMembers fuel := by
  induction fuel with
  | zero =>
    refine ⟨?_, ?_, ?_⟩
    · intro room st v r pv hl
      obtain ⟨c, t, he, -⟩ := write_head st pv
      rw [he] at hl
      cases hl
    · intro room st v vs tail r _ _ hl
      cases hl
    · intro room st before k v ms tail r _ _ _ hl
      cases hl
  | succ fuel ih =>
    obtain ⟨hv, hi, hm⟩ := ih
    exact ⟨readsValues_succ hi hm, readsItems_succ hv hi, readsMembers_succ hv hm⟩

/-- A plain value's document, whatever blanks follow it, is read as that value. -/
theorem document_write (st : Style) {v : Json} (pv : v.Plain room) {r : List Char}
    (hr : ∀ c ∈ r, isSpace c = true) : document none room (write st v ++ r) = .ok v := by
  have hs : Stops r := by
    cases r with
    | nil => intro c hc; cases hc
    | cons c r =>
      have hc := hr c List.mem_cons_self
      simp only [isSpace, Bool.or_eq_true, beq_iff_eq] at hc
      rcases hc with ((rfl | rfl) | rfl) | rfl <;> exact stops_of_head (by decide) r
  have hk : skip r = [] := List.dropWhile_eq_nil_iff.mpr hr
  have hv := (reads (2 * (write st v ++ r).length + 2)).1 room st v r pv
    (by rw [List.length_append]; omega) hs
  unfold document
  split
  · next h =>
    obtain ⟨c, t, he, -, -, hc⟩ := write_head st pv
    rw [he] at h
    cases h
    exact absurd rfl hc
  · rw [skip_write st pv, hv]
    simp only [hk]

theorem not_mem_lead (st : Style) : '\r' ∉ st.lead := by
  cases st <;> simp [Style.lead]

theorem not_mem_between (st : Style) : '\r' ∉ st.between := by
  cases st <;> simp [Style.between, Style.lead]

mutual
/-- A return in a value is written as an escape. -/
theorem not_mem_write (room : Nat) (st : Style) : ∀ v : Json, v.Plain room → '\r' ∉ write st v
  | null, _ => by simp [write]
  | bool true, _ => by simp [write]
  | bool false, _ => by simp [write]
  | num _, h => ReadsBack.noReturn (plain_num.mp h)
  | str s, _ => not_mem_writeText (by decide) s
  | arr [], _ => by simp [write]
  | obj [], _ => by simp [write]
  | arr (v :: vs), h => by
    obtain _ | room := room
    · simp [Plain] at h
    obtain ⟨h, hs⟩ := plain_arr.mp h
    simp [write, not_mem_lead, not_mem_write room st.deeper v h,
      not_mem_writeItems room st.deeper vs hs]
  | obj ((k, v) :: ms), h => by
    obtain _ | room := room
    · simp [Plain] at h
    obtain ⟨-, h, hs⟩ := plain_obj.mp h
    simp [write, not_mem_lead, not_mem_writeText (c := '\r') (by decide),
      not_mem_write room st.deeper v h, not_mem_writeMembers room st.deeper ms hs]

theorem not_mem_writeItems (room : Nat) (st : Style) :
    ∀ vs : List Json, PlainItems room vs → '\r' ∉ writeItems st vs
  | [], _ => by simp [writeItems]
  | v :: vs, ⟨h, hs⟩ => by
    simp [writeItems, not_mem_between, not_mem_write room st v h, not_mem_writeItems room st vs hs]

theorem not_mem_writeMembers (room : Nat) (st : Style) :
    ∀ ms : Members, PlainMembers room ms → '\r' ∉ writeMembers st ms
  | [], _ => by simp [writeMembers]
  | (k, v) :: ms, ⟨h, hs⟩ => by
    simp [writeMembers, not_mem_between, not_mem_writeText, not_mem_write room st v h,
      not_mem_writeMembers room st ms hs]
end

theorem not_mem_pretty {v : Json} (pv : v.Plain room) : '\r' ∉ (v.pretty ++ "\n").toList := by
  have hw := not_mem_write room (.indented 0) v pv
  simp only [pretty, String.toList_append, String.toList_ofList, List.mem_append, not_or]
  exact ⟨hw, by decide⟩

theorem followed_of_document {s : List Char} {v : Json}
    (h : document none roomAlways s = .ok v) : followed s = .ok v := by
  have hc : ofCharacters roomAlways s = .ok v := by rw [ofCharacters, h]
  rw [followed, hc]

/-- The document that a file holds is read as the value it was written for. -/
theorem read_pretty {v : Json} (pv : v.Plain roomAlways) : read (v.pretty ++ "\n") = .ok v := by
  have ht : (v.pretty ++ "\n").toList = write (.indented 0) v ++ ['\n'] := by
    rw [String.toList_append, pretty, String.toList_ofList]
    rfl
  rw [read, ht, followed_of_document (document_write _ pv (by simp [isSpace]))]
  rfl

/-- The same for a document on one line. -/
theorem read_compact {v : Json} (pv : v.Plain roomAlways) : read v.compact = .ok v := by
  have ht : v.compact.toList = write .oneLine v ++ [] := by
    rw [compact, String.toList_ofList, List.append_nil]
  rw [read, ht, followed_of_document (document_write _ pv (by simp))]
  rfl

end Walkthrough.Json
