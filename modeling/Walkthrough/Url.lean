import Walkthrough.Url.Host
/-!
URLs: their five parts, and putting the parts together again.
-/

namespace Walkthrough

/-- The parts of a URL. -/
structure Url where
  scheme : List Char
  authority : List Char
  path : List Char
  query : List Char
  fragment : List Char
  deriving DecidableEq, Repr

namespace Url

def isSchemeChar (c : Char) : Bool := isAlnum c || c == '+' || c == '-' || c == '.'

/-- The scheme in small letters and what follows its colon. -/
def splitScheme (s : List Char) : List Char × List Char :=
  let scheme := s.takeWhile (· != ':')
  match s.dropWhile (· != ':'), scheme with
  | ':' :: r, c :: _ =>
    if c.isAlpha && scheme.all isSchemeChar then (scheme.map Char.toLower, r) else ([], s)
  | _, _ => ([], s)

def endsAuthority (c : Char) : Bool := c == '/' || c == '?' || c == '#'

/-- The authority behind two slashes and what follows it. -/
def splitAuthority : List Char → List Char × List Char
  | '/' :: '/' :: r => (r.takeWhile (!endsAuthority ·), r.dropWhile (!endsAuthority ·))
  | s => ([], s)

/-- The two sides of the first separator; the second is empty without one. -/
def splitFirst (sep : Char) (s : List Char) : List Char × List Char :=
  (s.takeWhile (· != sep), (s.dropWhile (· != sep)).drop 1)

/-- Characters whose compatibility form holds a delimiter. -/
def hidesDelimiter (c : Char) : Bool :=
  [0x2047, 0x2048, 0x2049, 0x2100, 0x2101, 0x2105, 0x2106, 0x2A74, 0xFE13, 0xFE16, 0xFE55, 0xFE56,
    0xFE5F, 0xFE6B, 0xFF03, 0xFF0F, 0xFF1A, 0xFF1F, 0xFF20].contains c.toNat

/-- A character that counts for nothing at the start of a URL: a control character or a blank. -/
def isLeading (c : Char) : Bool := c.toNat ≤ 0x20

def authorityFault? (authority : List Char) : Option UrlFault :=
  match authority.contains '[', authority.contains ']' with
  | true, true => bracketFault? authority
  | false, false => none
  | _, _ => some .brackets

/-- Reads a URL; tabs and line ends in it are dropped. -/
def parse (s : String) : Except Fault Url :=
  let s := (s.toList.dropWhile isLeading).filter fun c => !(c == '\t' || c == '\r' || c == '\n')
  let (scheme, r) := splitScheme s
  let (authority, r) := splitAuthority r
  match authorityFault? authority with
  | some f => .error (.url f)
  | none =>
  let (r, fragment) := splitFirst '#' r
  let (path, query) := splitFirst '?' r
  if authority.any hidesDelimiter then
    .error (.url (.hiddenDelimiter (String.ofList authority)))
  else .ok ⟨scheme, authority, path, query, fragment⟩

/-- Schemes whose URLs have an authority, be it empty. -/
def authoritySchemes : List String :=
  ["ftp", "http", "gopher", "nntp", "telnet", "imap", "wais", "file", "mms", "https", "shttp",
    "snews", "prospero", "rtsp", "rtspu", "rsync", "svn", "svn+ssh", "sftp", "nfs", "git",
    "git+ssh", "ws", "wss"]

/-- The part before a mark and the mark, if there is something behind it. -/
def marked (mark : Char) (s : List Char) : List Char := if s.isEmpty then [] else mark :: s

def place (u : Url) : List Char :=
  let open_ := !u.authority.isEmpty ||
    (authoritySchemes.contains (String.ofList u.scheme) && !"//".toList.isPrefixOf u.path)
  if !open_ then u.path else
  let path := if !u.path.isEmpty && u.path.head? != some '/' then '/' :: u.path else u.path
  '/' :: '/' :: u.authority ++ path

def text (u : Url) : String :=
  String.ofList ((if u.scheme.isEmpty then [] else u.scheme ++ [':']) ++ u.place ++
    marked '?' u.query ++ marked '#' u.fragment)

end Url

end Walkthrough
