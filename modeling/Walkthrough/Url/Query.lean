import Walkthrough.Identifier
import Walkthrough.Text.Utf8
/-!
Queries: pairs of a name and a value, percent-encoded and joined by ampersands.
-/

namespace Walkthrough.Url

open Text.Utf8 (Bytes)

abbrev Pair := List Char × List Char

def isUnreserved (c : Char) : Bool := isPartChar c || c == '.' || c == '~'

/-- A digit in base sixteen, in capitals. -/
def hexCapital (n : Nat) : Char := (Nat.digitChar n).toUpper

def escapeByte (b : UInt8) : List Char :=
  ['%', hexCapital (b.toNat / 16), hexCapital (b.toNat % 16)]

def encodeChar (c : Char) : List Char :=
  if isUnreserved c then [c]
  else if c = ' ' then ['+']
  else (Text.Utf8.encodeChar c).flatMap escapeByte

def encode (s : List Char) : List Char := s.flatMap encodeChar

/-- The value of a digit in base sixteen. -/
def hexValue? (c : Char) : Option Nat :=
  if '0' ≤ c ∧ c ≤ '9' then some (c.toNat - 48)
  else if 'a' ≤ c ∧ c ≤ 'f' then some (c.toNat - 87)
  else if 'A' ≤ c ∧ c ≤ 'F' then some (c.toNat - 55)
  else none

/-- The bytes of a text in a query; a percent sign without two digits stands for itself. -/
def bytes : List Char → Bytes
  | [] => []
  | '%' :: a :: b :: r =>
    match hexValue? a, hexValue? b with
    | some h, some l => (16 * h + l).toUInt8 :: bytes r
    | _, _ => Text.Utf8.encodeChar '%' ++ bytes (a :: b :: r)
  | c :: r => Text.Utf8.encodeChar (if c = '+' then ' ' else c) ++ bytes r

def decode (s : List Char) : List Char := Text.Utf8.decodeLossy (bytes s)

def pairOf (s : List Char) : Pair :=
  (decode (s.takeWhile (· != '=')), decode ((s.dropWhile (· != '=')).drop 1))

/-- The pairs of a query; empty pieces count for nothing. -/
def pairs (query : List Char) : List Pair :=
  ((Text.pieces '&' query).filter (!·.isEmpty)).map pairOf

def pairText (p : Pair) : List Char := encode p.1 ++ '=' :: encode p.2

def ofPairs (ps : List Pair) : List Char := ['&'].intercalate (ps.map pairText)

end Walkthrough.Url
