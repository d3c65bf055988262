import Walkthrough.Text.Case
/-!
Lower-case form of a text, with the one letter that becomes two and the final sigma.
-/

namespace Walkthrough.Text

/-- The small letter of a character, or the character. -/
def lowerChar (c : Char) : Char :=
  match lowerRuns.find? fun (a, b, step, _) =>
      decide (a ≤ c.toNat) && decide (c.toNat ≤ b) && (c.toNat - a) % step == 0 with
  | some (a, _, _, small) => Char.ofNat (small + (c.toNat - a))
  | none => c

/-- The nearest character that is not passed over is cased. -/
def meetsCased (s : List Char) : Bool :=
  (s.find? fun c => !caseIgnorable.has c).any cased.has

/-- Lower-cases a text, given what stands before it, nearest first. -/
def lowerAfter (before : List Char) : List Char → List Char
  | [] => []
  | c :: r =>
    (if c = 'Σ' then [if meetsCased before && !meetsCased r then 'ς' else 'σ']
      else if c = 'İ' then ['i', '\u0307']
      else [lowerChar c]) ++ lowerAfter (c :: before) r

def lower (s : List Char) : List Char := lowerAfter [] s

end Walkthrough.Text
