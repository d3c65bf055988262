import Walkthrough.Fault
/-!
Hosts in brackets: IPv6 addresses and addresses of a later version. An IPv4 address does not stand
in brackets, and nothing stands between the brackets and what surrounds a host.
-/

namespace Walkthrough.Url

def isDecimal (c : Char) : Bool := '0' ≤ c && c ≤ '9'

/-- A digit in base sixteen. -/
def isHexDigit (c : Char) : Bool :=
  isDecimal c || ('a' ≤ c && c ≤ 'f') || ('A' ≤ c && c ≤ 'F')

/-- A number up to 255 without leading noughts. -/
def isOctet (s : List Char) : Bool :=
  allOf isDecimal s && s.length ≤ 3 && (s.head? != some '0' || s == ['0']) &&
    Json.asciiValue s ≤ 255

def isIPv4 (s : List Char) : Bool :=
  let octets := Text.pieces '.' s
  octets.length == 4 && octets.all isOctet

/-- Sixteen bits in base sixteen. -/
def isHextet (s : List Char) : Bool := allOf isHexDigit s && s.length ≤ 4

/-- The hextets of an address; an IPv4 address at the end stands for two. -/
def hextets? (s : List Char) : Option (List (List Char)) :=
  let parts := Text.pieces ':' s
  match parts.getLast? with
  | some last =>
    if !last.contains '.' then some parts
    else if isIPv4 last then some (parts.dropLast ++ [['0'], ['0']])
    else none
  | none => none

/-- One side of a gap: hextets, or nothing but the gap's own colon. -/
def isSide (parts : List (List Char)) : Bool := parts == [[]] || parts.all isHextet

/-- Eight hextets, or fewer with one gap between them. A gap shows as an empty part that is neither
first nor last. -/
def areHextets (parts : List (List Char)) : Bool :=
  let inner := (parts.drop 1).dropLast
  match inner.count [] with
  | 0 => parts.length == 8 && parts.all isHextet
  | 1 =>
    let before := parts.take (inner.idxOf [] + 1)
    let behind := parts.drop (inner.idxOf [] + 2)
    isSide before && isSide behind &&
      (before.filter (!·.isEmpty)).length + (behind.filter (!·.isEmpty)).length ≤ 7
  | _ => false

/-- An IPv6 address, which may name its zone behind a percent sign. -/
def isIPv6 (s : List Char) : Bool :=
  let (address, zone) := (s.takeWhile (· != '%'), s.dropWhile (· != '%'))
  (zone.isEmpty || (1 < zone.length && !(zone.drop 1).contains '%')) &&
    3 ≤ (Text.pieces ':' address).length && (hextets? address).any areHextets

/-- An address of a later version: `v`, the version, a dot and something. -/
def isFuture (s : List Char) : Bool :=
  match s with
  | 'v' :: r => allOf isHexDigit (r.takeWhile (· != '.')) && 1 < (r.dropWhile (· != '.')).length
  | _ => false

/-- What is wrong with a host where one in brackets is wanted. -/
def hostFault? (host : List Char) : Option UrlFault :=
  if host.head? == some 'v' then if isFuture host then none else some .future
  else if isIPv4 host then some .fourInBrackets
  else if isIPv6 host then none
  else some (.notAnAddress (String.ofList host))

/-- What follows the last `@`. -/
def behindUser (authority : List Char) : List Char :=
  (authority.reverse.takeWhile (· != '@')).reverse

/-- What is wrong with an authority that has brackets. -/
def bracketFault? (authority : List Char) : Option UrlFault :=
  let s := behindUser authority
  match s.takeWhile (· != '['), s.dropWhile (· != '[') with
  | front, _ :: r =>
    let rest := (r.dropWhile (· != ']')).drop 1
    if !front.isEmpty || !(rest.isEmpty || rest.head? == some ':') then some .brackets
    else hostFault? (r.takeWhile (· != ']'))
  | front, [] => hostFault? (front.takeWhile (· != ':'))

end Walkthrough.Url
