/-!
White space of every script, and cutting characters off the ends of a text.
-/

namespace Walkthrough.Text

/-- White space, line breaks and the four information separators included. -/
def isBlank (c : Char) : Bool :=
  let n := c.toNat
  (9 ≤ n && n ≤ 13) || (28 ≤ n && n ≤ 32) || n == 0x85 || n == 0xA0 || n == 0x1680 ||
    (0x2000 ≤ n && n ≤ 0x200A) || n == 0x2028 || n == 0x2029 || n == 0x202F || n == 0x205F ||
    n == 0x3000

/-- Cuts the longest run of such characters off the start. -/
def stripStart (p : Char → Bool) (s : List Char) : List Char := s.dropWhile p

/-- Cuts the longest run of such characters off the end. -/
def stripEnd (p : Char → Bool) (s : List Char) : List Char := (s.reverse.dropWhile p).reverse

/-- Cuts such characters off both ends. -/
def strip (p : Char → Bool) (s : List Char) : List Char := stripEnd p (stripStart p s)

/-- The text without white space at its ends. -/
def trim (s : List Char) : List Char := strip isBlank s

end Walkthrough.Text

/-- The text without white space at its ends. -/
def String.trimBlank (s : String) : String := String.ofList (Walkthrough.Text.trim s.toList)

/-- The text without slashes at its end. -/
def String.withoutFinalSlashes (s : String) : String :=
  String.ofList (Walkthrough.Text.stripEnd (· == '/') s.toList)
