import Walkthrough.Text.Blank
/-!
Lines of a text, pieces between separators, and line ends brought to one form.
-/

namespace Walkthrough.Text

def isBreak (c : Char) : Bool :=
  let n := c.toNat
  (10 ≤ n && n ≤ 13) || (28 ≤ n && n ≤ 30) || n == 0x85 || n == 0x2028 || n == 0x2029

/-- Puts a character in front of the first of some lines, which it opens if there is none. -/
def consFirst (c : Char) : List (List Char) → List (List Char)
  | [] => [[c]]
  | l :: ls => (c :: l) :: ls

/-- The lines of a text without their ends; a final line end opens no further line. -/
def lines : List Char → List (List Char)
  | [] => []
  | '\r' :: '\n' :: r => [] :: lines r
  | c :: r => if isBreak c then [] :: lines r else consFirst c (lines r)

/-- The parts of a text between the separators: one more than there are separators. -/
def pieces (sep : Char) : List Char → List (List Char)
  | [] => [[]]
  | c :: r => if c = sep then [] :: pieces sep r else consFirst c (pieces sep r)

def isPart (part : List Char) : List Char → Bool
  | [] => part.isEmpty
  | c :: r => part.isPrefixOf (c :: r) || isPart part r

/-- Every line end as one line feed. -/
def unifyLineEnds : List Char → List Char
  | [] => []
  | '\r' :: '\n' :: r => '\n' :: unifyLineEnds r
  | c :: r => (if c = '\r' then '\n' else c) :: unifyLineEnds r

theorem pieces_ne_nil (sep : Char) (s : List Char) : pieces sep s ≠ [] := by
  cases s with
  | nil => simp [pieces]
  | cons c r =>
    unfold pieces
    split
    · simp
    · cases pieces sep r <;> simp [consFirst]

/-- Joining the pieces by their separator gives the text back. -/
theorem intercalate_pieces (sep : Char) (s : List Char) :
    [sep].intercalate (pieces sep s) = s := by
  induction s with
  | nil => rfl
  | cons c r ih =>
    unfold pieces
    split
    · next h =>
      subst h
      cases hp : pieces c r with
      | nil => exact absurd hp (pieces_ne_nil c r)
      | cons p ps => rw [hp] at ih; simpa [List.intercalate, List.intersperse] using ih
    · cases hp : pieces sep r with
      | nil => exact absurd hp (pieces_ne_nil sep r)
      | cons p ps =>
        rw [hp] at ih
        cases ps with
        | nil => simpa [consFirst, List.intercalate, List.intersperse] using ih
        | cons q qs => simpa [consFirst, List.intercalate, List.intersperse] using ih

end Walkthrough.Text

/-- The lines of a text without their ends. -/
def String.brokenLines (s : String) : List String :=
  (Walkthrough.Text.lines s.toList).map String.ofList

def String.pieces (s : String) (sep : Char) : List String :=
  (Walkthrough.Text.pieces sep s.toList).map String.ofList

/-- The first line of a text that has something other than white space. -/
def String.firstLine? (s : String) : Option String :=
  s.trimBlank.brokenLines.head?

def String.holds (s part : String) : Bool := Walkthrough.Text.isPart part.toList s.toList
