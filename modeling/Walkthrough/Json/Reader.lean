import Walkthrough.Json
import Walkthrough.Text.Lines
/-!
Reading JSON. A fault names its cause and its place; the place is kept as the number of
characters from it to the end, which no function needs the whole text to know.
-/

namespace Walkthrough.Json

/-- What is wrong in a text that is not JSON. -/
inductive Cause where
  | value
  | propertyName
  | colon
  | comma
  | unterminated
  | controlCharacter
  | escape
  | unicodeEscape
  | extraData
  | byteOrderMark
  deriving DecidableEq, Repr

def Cause.message : Cause → String
  | value => "Expecting value"
  | propertyName => "Expecting property name enclosed in double quotes"
  | colon => "Expecting ':' delimiter"
  | comma => "Expecting ',' delimiter"
  | unterminated => "Unterminated string starting at"
  | controlCharacter => "Invalid control character at"
  | escape => "Invalid \\escape"
  | unicodeEscape => "Invalid \\uXXXX escape"
  | extraData => "Extra data"
  | byteOrderMark => "Unexpected UTF-8 BOM (decode using utf-8-sig)"

/-- What is not read though it may be JSON: a whole number with more digits than are read, brackets
that are nested too deep, and what is not followed here. That is half of a surrogate pair, which is
no character, and brackets that are nested so deep that it depends on the reader's caller whether
they are read. -/
inductive Refusal where
  | longNumber (digits : Nat)
  | tooDeep
  | unfollowed
  deriving DecidableEq, Repr

/-- Why reading stops: a cause and how many characters are left there, or a refusal. -/
inductive Halt where
  | syntaxAt (cause : Cause) (left : Nat)
  | refused (r : Refusal)
  deriving DecidableEq, Repr

/-- A value read and the text behind it, or the reason to stop. -/
abbrev Reading (α : Type) := Except Halt (α × List Char)

def isSpace (c : Char) : Bool := c == ' ' || c == '\t' || c == '\n' || c == '\r'

def skip (s : List Char) : List Char := s.dropWhile isSpace

/-- The value of a digit in base sixteen. -/
def hexDigit? (c : Char) : Option Nat :=
  if '0' ≤ c ∧ c ≤ '9' then some (c.toNat - '0'.toNat)
  else if 'a' ≤ c ∧ c ≤ 'f' then some (c.toNat - 'a'.toNat + 10)
  else if 'A' ≤ c ∧ c ≤ 'F' then some (c.toNat - 'A'.toNat + 10)
  else none

/-- Four digits in base sixteen with something behind them. -/
def hexQuad? : List Char → Option (Nat × List Char)
  | a :: b :: c :: d :: e :: r => do
    let n := (← hexDigit? a) * 4096 + (← hexDigit? b) * 256 + (← hexDigit? c) * 16 + (← hexDigit? d)
    some (n, e :: r)
  | _ => none

/-- The character of a code unit, with what is behind it. Half of a surrogate pair has none, but may
be read as if it had. -/
def ofUnit (half : Option Char) (n : Nat) (r : List Char) : Reading Char :=
  if n.isValidChar then .ok (Char.ofNat n, r) else
  match half with
  | some c => .ok (c, r)
  | none => .error (.refused .unfollowed)

/-- What follows `\u`: a code unit, or two that make one character. -/
def unicodeEscape (half : Option Char) (s : List Char) : Reading Char :=
  match hexQuad? s with
  | none => .error (.syntaxAt .unicodeEscape (s.length + 1))
  | some (high, r) =>
    if 0xD800 ≤ high ∧ high < 0xDC00 then
      match r with
      | '\\' :: 'u' :: t =>
        if t.length < 5 then ofUnit half high r else
        match hexQuad? t with
        | none => .error (.syntaxAt .unicodeEscape (t.length + 1))
        | some (low, r') =>
          if 0xDC00 ≤ low ∧ low < 0xE000 then
            .ok (Char.ofNat (0x10000 + (high - 0xD800) * 1024 + (low - 0xDC00)), r')
          else ofUnit half high r
      | _ => ofUnit half high r
    else ofUnit half high r

/-- What follows a backslash that has something behind it. -/
def escaped (half : Option Char) (c : Char) (r : List Char) : Reading Char :=
  match c with
  | '"' => .ok ('"', r)
  | '\\' => .ok ('\\', r)
  | '/' => .ok ('/', r)
  | 'b' => .ok ('\x08', r)
  | 'f' => .ok ('\x0c', r)
  | 'n' => .ok ('\n', r)
  | 'r' => .ok ('\r', r)
  | 't' => .ok ('\t', r)
  | 'u' => unicodeEscape half r
  | _ => .error (.syntaxAt .escape (r.length + 2))

theorem length_hexQuad? {s r : List Char} {n : Nat} (h : hexQuad? s = some (n, r)) :
    r.length < s.length := by
  unfold hexQuad? at h
  split at h
  · simp only [Option.bind_eq_bind, Option.bind_eq_some_iff, Option.some.injEq,
      Prod.mk.injEq] at h
    obtain ⟨_, _, _, _, _, _, _, _, _, rfl⟩ := h
    simp only [List.length_cons]; omega
  · cases h

theorem eq_of_ofUnit {half : Option Char} {n : Nat} {r r' : List Char} {c : Char}
    (h : ofUnit half n r = .ok (c, r')) : r' = r := by
  unfold ofUnit at h
  split at h
  · cases h
    rfl
  · split at h <;> cases h
    rfl

theorem length_unicodeEscape {half : Option Char} {s r : List Char} {c : Char}
    (h : unicodeEscape half s = .ok (c, r)) : r.length < s.length := by
  unfold unicodeEscape at h
  split at h
  · cases h
  · next high t hq =>
    have hl := length_hexQuad? hq
    split at h
    · split at h
      · next u =>
        split at h
        · rwa [eq_of_ofUnit h]
        · split at h
          · cases h
          · next low v hv =>
            have hl2 := length_hexQuad? hv
            split at h
            · simp only [Except.ok.injEq, Prod.mk.injEq] at h
              obtain ⟨-, rfl⟩ := h
              simp only [List.length_cons] at hl
              omega
            · rwa [eq_of_ofUnit h]
      · rwa [eq_of_ofUnit h]
    · rwa [eq_of_ofUnit h]

theorem length_escaped {half : Option Char} {s r : List Char} {c d : Char}
    (h : escaped half c s = .ok (d, r)) : r.length ≤ s.length := by
  unfold escaped at h
  split at h
  case h_9 => exact Nat.le_of_lt (length_unicodeEscape h)
  case h_10 => cases h
  all_goals cases h; exact Nat.le_refl _

/-- The characters of a text value up to its closing quote; `opening` is the text from the opening
one on. -/
def chars (half : Option Char) (opening : List Char) : List Char → Reading (List Char)
  | [] => .error (.syntaxAt .unterminated opening.length)
  | '"' :: r => .ok ([], r)
  | ['\\'] => .error (.syntaxAt .unterminated opening.length)
  | '\\' :: e :: r =>
    match _h : escaped half e r with
    | .error f => .error f
    | .ok (c, t) =>
      match chars half opening t with
      | .error f => .error f
      | .ok (cs, u) => .ok (c :: cs, u)
  | c :: r =>
    if c.toNat < 0x20 then .error (.syntaxAt .controlCharacter (r.length + 1)) else
    match chars half opening r with
    | .error f => .error f
    | .ok (cs, u) => .ok (c :: cs, u)
termination_by s => s.length
decreasing_by
  · have := length_escaped _h; simp only [List.length_cons]; omega
  · simp only [List.length_cons]; omega

def isAsciiDigit (c : Char) : Bool := '0' ≤ c && c ≤ '9'

def asciiValue (ds : List Char) : Nat := ds.foldl (fun n c => 10 * n + (c.toNat - '0'.toNat)) 0

/-- The whole part of a number: nought alone or digits that start otherwise. -/
def wholePart? : List Char → Option (List Char × List Char)
  | '0' :: r => some (['0'], r)
  | c :: r =>
    if isAsciiDigit c then some (c :: r.takeWhile isAsciiDigit, r.dropWhile isAsciiDigit) else none
  | [] => none

/-- A point with digits behind it, if they are there. -/
def fraction? : List Char → Option (List Char × List Char)
  | '.' :: r =>
    match r.takeWhile isAsciiDigit with
    | [] => none
    | ds => some (ds, r.dropWhile isAsciiDigit)
  | _ => none

/-- An exponent mark with an optional sign and digits behind it, if they are there. -/
def exponent? : List Char → Option (Int × List Char)
  | e :: r =>
    if e = 'e' ∨ e = 'E' then
      let (negative, t) := match r with
        | '+' :: t => (false, t)
        | '-' :: t => (true, t)
        | t => (false, t)
      match t.takeWhile isAsciiDigit with
      | [] => none
      | ds =>
        let n : Int := asciiValue ds
        some (if negative then -n else n, t.dropWhile isAsciiDigit)
    else none
  | [] => none

/-- The most digits of a whole number that are read. -/
def digitLimit : Nat := 4300

/-- A number without its sign. -/
def unsigned? (negative : Bool) (s : List Char) : Option (Reading Number) := do
  let (ds, r) ← wholePart? s
  match fraction? r, exponent? ((fraction? r).elim r (·.2)) with
  | none, none =>
    some <| if digitLimit < ds.length then .error (.refused (.longNumber ds.length))
      else .ok (.int (Binary64.signed negative (asciiValue ds)), r)
  | frac, exp =>
    let fs := frac.elim [] (·.1)
    let r := frac.elim r (·.2)
    some (.ok (.real (.ofDecimal negative (asciiValue (ds ++ fs))
      (exp.elim 0 (·.1) - fs.length)), exp.elim r (·.2)))

/-- A number, or one of the three names of what is none. -/
def number (s : List Char) : Reading Number :=
  match s with
  | '-' :: r =>
    if "Infinity".toList.isPrefixOf r then .ok (.real (.infinity true), r.drop 8)
    else (unsigned? true r).getD (.error (.syntaxAt .value s.length))
  | _ =>
    if "NaN".toList.isPrefixOf s then .ok (.real .nan, s.drop 3)
    else if "Infinity".toList.isPrefixOf s then .ok (.real (.infinity false), s.drop 8)
    else (unsigned? false s).getD (.error (.syntaxAt .value s.length))

mutual
/-- A value, with room for brackets nested in each other. The fuel is the length of the text at
least. -/
def value (half : Option Char) (room fuel : Nat) (s : List Char) :
    Except Halt (Json × List Char) :=
  match fuel with
  | 0 => .error (.syntaxAt .value s.length)
  | fuel + 1 =>
    match s with
    | '"' :: r => do
      let (cs, t) ← chars half s r
      .ok (.str (String.ofList cs), t)
    | '[' :: r =>
      match room with
      | 0 => .error (.refused .tooDeep)
      | room + 1 =>
        match skip r with
        | ']' :: t => .ok (.arr [], t)
        | t => do
          let (vs, u) ← items half room fuel t
          .ok (.arr vs, u)
    | '\x7b' :: r =>
      match room with
      | 0 => .error (.refused .tooDeep)
      | room + 1 =>
        match skip r with
        | '\x7d' :: t => .ok (.obj [], t)
        | t => do
          let (ms, u) ← members half room fuel [] t
          .ok (.obj ms, u)
    | 'n' :: 'u' :: 'l' :: 'l' :: r => .ok (.null, r)
    | 't' :: 'r' :: 'u' :: 'e' :: r => .ok (.bool true, r)
    | 'f' :: 'a' :: 'l' :: 's' :: 'e' :: r => .ok (.bool false, r)
    | _ => do
      let (n, t) ← number s
      .ok (.num n, t)

/-- The values of a list from the first one on, with the closing bracket. -/
def items (half : Option Char) (room fuel : Nat) (s : List Char) :
    Except Halt (List Json × List Char) :=
  match fuel with
  | 0 => .error (.syntaxAt .value s.length)
  | fuel + 1 => do
    let (v, r) ← value half room fuel s
    match skip r with
    | ']' :: t => .ok ([v], t)
    | ',' :: t =>
      let (vs, u) ← items half room fuel (skip t)
      .ok (v :: vs, u)
    | t => .error (.syntaxAt .comma t.length)

/-- The members of an object from the next one on, with the closing brace, after those that
were read; the last value of a key counts. -/
def members (half : Option Char) (room fuel : Nat) (before : Members) (s : List Char) :
    Except Halt (Members × List Char) :=
  match fuel with
  | 0 => .error (.syntaxAt .value s.length)
  | fuel + 1 =>
    match s with
    | '"' :: r => do
      let (key, t) ← chars half s r
      match skip t with
      | ':' :: u =>
        let (v, w) ← value half room fuel (skip u)
        let ms := before.put (String.ofList key) v
        match skip w with
        | '\x7d' :: x => .ok (ms, x)
        | ',' :: x => members half room fuel ms (skip x)
        | x => .error (.syntaxAt .comma x.length)
      | u => .error (.syntaxAt .colon u.length)
    | _ => .error (.syntaxAt .propertyName s.length)
end

/-- A whole document, with room for brackets nested in each other. -/
def document (half : Option Char) (room : Nat) (s : List Char) : Except Halt Json :=
  match s with
  | '\uFEFF' :: _ => .error (.syntaxAt .byteOrderMark s.length)
  | _ =>
    match value half room (2 * s.length + 2) (skip s) with
    | .error f => .error f
    | .ok (v, r) =>
      match skip r with
      | [] => .ok v
      | t => .error (.syntaxAt .extraData t.length)

/-- How deep brackets may be nested to be read wherever the reader is called. -/
def roomAlways : Nat := 500

/-- How deep brackets may be nested to be read anywhere: the calls of the reader, one in another,
are one fewer than a thousand at most. -/
def roomEver : Nat := 999

/-- A whole document of characters only. One that is none but for halves of surrogate pairs is
refused; what else is wrong in a text is found with any character in their place. -/
def ofCharacters (room : Nat) (s : List Char) : Except Halt Json :=
  match document none room s with
  | .error (.refused .unfollowed) =>
    match document (some '\uFFFD') room s with
    | .ok _ => .error (.refused .unfollowed)
    | r => r
  | r => r

/-- A whole document, wherever the reader is called. -/
def followed (s : List Char) : Except Halt Json :=
  match ofCharacters roomAlways s with
  | .error (.refused .tooDeep) =>
    match ofCharacters roomEver s with
    | .error (.refused .tooDeep) => .error (.refused .tooDeep)
    | _ => .error (.refused .unfollowed)
  | r => r

/-- Why there is no document of a text: a cause with its line, column and index, or a refusal. -/
inductive ReadError where
  | malformed (cause : Cause) (line column index : Nat)
  | refused (r : Refusal)
  deriving DecidableEq, Repr

/-- The line and column of an index, both from one. -/
def lineColumn (s : List Char) (index : Nat) : Nat × Nat :=
  let before := s.take index
  (before.count '\n' + 1, (before.reverse.takeWhile (· ≠ '\n')).length + 1)

def Halt.locate (s : List Char) : Halt → ReadError
  | .syntaxAt cause left =>
    let index := s.length - left
    let (line, column) := lineColumn s index
    .malformed cause line column index
  | .refused r => .refused r

def read (s : String) : Except ReadError Json :=
  (followed s.toList).mapError (Halt.locate s.toList)

end Walkthrough.Json
