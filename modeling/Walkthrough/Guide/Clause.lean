import Walkthrough.Text.Lines
/-!
Clauses of a guide line: the directive and its modifiers, divided by ` |` outside quotes.
-/

namespace Walkthrough.Guide

/-- What stands before a quote that opens: a modifier that takes a quoted text. -/
def opensQuote (before : List Char) : Bool :=
  let t := Text.trim before
  t == "narration:".toList || t == "annotate:".toList

/-- The pieces between dividers; `before` is the piece so far from its last character on. -/
def piecesFrom (before : List Char) (inQuotes : Bool) : List Char → List (List Char)
  | [] => [before.reverse]
  | '"' :: r =>
    piecesFrom ('"' :: before) (if inQuotes then false else opensQuote before.reverse) r
  | ' ' :: '|' :: r =>
    if inQuotes then piecesFrom (' ' :: before) inQuotes ('|' :: r)
    else before.reverse :: piecesFrom [] false r
  | c :: r => piecesFrom (c :: before) inQuotes r

def rawClauses (s : List Char) : List (List Char) := piecesFrom [] false s

def clauses (s : List Char) : List (List Char) := (rawClauses s).map Text.trim

theorem piecesFrom_ne_nil (before : List Char) (q : Bool) (s : List Char) :
    piecesFrom before q s ≠ [] := by
  fun_induction piecesFrom before q s <;> simp_all

theorem clauses_ne_nil (s : List Char) : clauses s ≠ [] := by
  simp [clauses, rawClauses, piecesFrom_ne_nil]

end Walkthrough.Guide
