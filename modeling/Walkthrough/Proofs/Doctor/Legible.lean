import Walkthrough.Proofs.Except
import Walkthrough.Proofs.Schema
import Walkthrough.Proofs.Files
/-!
Files of which it can be told what they hold. A document is read in one way wherever one is read:
the file is looked for and read, its bytes are read as a text and the text as a document. A fault
before the last of these, a whole number that is too long, or brackets that are nested too deep say
nothing about the document.
-/

namespace Walkthrough

namespace Store

variable {st st' : Store} {p : Path}

theorem find_of_lookup? {e : Entry} (h : st.lookup? p = .ok (some e)) :
    ∃ loc, st.find p = .ok (loc, e) := by
  unfold lookup? at h
  rcases hf : st.find p with cause | ⟨loc, e'⟩
  · rw [hf] at h
    cases cause <;> cases h
  · rw [hf] at h
    cases h
    exact ⟨loc, rfl⟩

/-- What a path leads to decides what is read there. -/
theorem read_congr (hthere : st.has p = .ok true) (h : st'.lookup? p = st.lookup? p) :
    st'.read p = st.read p := by
  rw [has] at hthere
  rcases he : st.lookup? p with f | _ | e
  · rw [he] at hthere
    cases hthere
  · rw [he] at hthere
    cases hthere
  · obtain ⟨loc, hf⟩ := find_of_lookup? he
    obtain ⟨loc', hf'⟩ := find_of_lookup? (h.trans he)
    rw [read, read, hf, hf']
    cases e <;> rfl

end Store

section

variable {st st' : Store} {file : Path}

theorem readText_congr (h : st'.read file = st.read file) :
    readText st' file = readText st file := by
  rw [readText, readText, h]

theorem readJson_congr (h : st'.read file = st.read file) :
    readJson st' file = readJson st file := by
  rw [readJson, readJson, readText_congr h]

theorem has_of_readText {text : String} (h : readText st file = .ok text) :
    st.has file = .ok true := by
  unfold readText at h
  obtain ⟨bytes, hbytes, -⟩ := bind_eq_ok.mp h
  rcases hr : st.read file with f | bytes'
  · rw [hr] at hbytes
    cases hbytes
  · exact Store.has_of_read hr

end

namespace Doctor

/-- It can be told what a file holds: it is a text, no whole number in it is too long to be read,
and it is not nested too deep. -/
def Legible (st : Store) (file : Path) : Prop :=
  ∃ text, readText st file = .ok text ∧
    (∀ digits, Json.read text ≠ .error (.refused (.longNumber digits))) ∧
    Json.read text ≠ .error (.refused .tooDeep)

/-- What was read is followed by the reader to where it ends. -/
def isFollowed : Except Fault Json → Bool
  | .error (.json (.refused .unfollowed)) => false
  | _ => true

/-- A file has nothing in it that the reader does not follow: no half of a surrogate pair, and no
brackets that are nested so deep that it depends on the reader's caller whether they are read. -/
def Followed (st : Store) (file : Path) : Prop := isFollowed (readJson st file) = true

/-- A file holds a document of a format. -/
def Holds (st : Store) (file : Path) (format : Schema) : Prop :=
  ∃ v, readJson st file = .ok v ∧ format.accepts v = true

/-- A file is missing, or it can be told what it holds. -/
def Judgeable (st : Store) (file : Path) : Prop := st.has file = .ok false ∨ Legible st file

variable {st st' : Store} {file : Path} {format : Schema}

/-- The reader refused to go on. -/
def gaveUp : Except Json.ReadError Json → Bool
  | .error (.refused _) => true
  | _ => false

theorem Legible.of_text {text : String} (ht : readText st file = .ok text)
    (h : gaveUp (Json.read text) = false) : Legible st file := by
  refine ⟨text, ht, fun digits hlong => ?_, fun hdeep => ?_⟩
  · rw [hlong] at h
    cases h
  · rw [hdeep] at h
    cases h

theorem Legible.has (h : Legible st file) : st.has file = .ok true := by
  obtain ⟨text, htext, -⟩ := h
  exact has_of_readText htext

/-- What comes of reading a document from a file: one that is legible is a document or has not the
form of one; otherwise there is a fault that says nothing about a document. -/
theorem readJson_cases (hf : Followed st file) :
    (Legible st file ∧ ∃ v, readJson st file = .ok v) ∨
      (Legible st file ∧ ∃ c l k i, readJson st file = .error (.json (.malformed c l k i))) ∨
      (¬ Legible st file ∧ ∃ f, readJson st file = .error f ∧
        ((∃ g, f = .file g) ∨ (∃ g, f = .utf8 g) ∨ ∃ r, f = .json (.refused r))) := by
  unfold Followed at hf
  unfold readJson at hf ⊢
  rcases ht : readText st file with f | text
  · refine .inr (.inr ⟨?_, f, rfl, ?_⟩)
    · rintro ⟨text, htext, -⟩
      rw [ht] at htext
      cases htext
    · rcases readText_fault ht with ⟨g, -, hg⟩ | h
      · exact .inl ⟨g, hg⟩
      · exact .inr (.inl h)
  · rw [ht] at hf
    rw [ok_bind] at hf ⊢
    rcases hj : Json.read text with (⟨c, l, k, i⟩ | r) | v
    · exact .inr (.inl ⟨.of_text ht (by rw [hj]; rfl), c, l, k, i, rfl⟩)
    · refine .inr (.inr ⟨?_, _, rfl, .inr (.inr ⟨r, rfl⟩)⟩)
      rintro ⟨text', htext, hlong, hdeep⟩
      rw [ht] at htext
      cases htext
      cases r with
      | longNumber digits => exact hlong digits hj
      | tooDeep => exact hdeep hj
      | unfollowed =>
        rw [hj] at hf
        cases hf
    · exact .inl ⟨.of_text ht (by rw [hj]; rfl), v, rfl⟩

theorem not_judgeable_of_fault {f : FileFault} (h : st.has file = .error f) :
    ¬ Judgeable st file := by
  rintro (hh | hl)
  · rw [hh] at h
    cases h
  · rw [hl.has] at h
    cases h

theorem not_judgeable (h : st.has file = .ok true) (hl : ¬ Legible st file) :
    ¬ Judgeable st file := by
  rintro (hh | hl')
  · rw [hh] at h
    cases h
  · exact hl hl'

theorem holds_iff {v : Json} (h : readJson st file = .ok v) :
    Holds st file format ↔ format.accepts v = true := by
  constructor
  · rintro ⟨w, hw, ha⟩
    rw [h] at hw
    cases hw
    exact ha
  · exact fun ha => ⟨v, h, ha⟩

theorem not_holds {f : Fault} (h : readJson st file = .error f) : ¬ Holds st file format := by
  rintro ⟨w, hw, -⟩
  rw [h] at hw
  cases hw

theorem not_holds_of_missing (h : st.has file = .ok false) : ¬ Holds st file format := by
  rintro ⟨v, hv, -⟩
  obtain ⟨text, htext, -⟩ := bind_eq_ok.mp hv
  rw [has_of_readText htext] at h
  cases h

end Doctor

end Walkthrough
