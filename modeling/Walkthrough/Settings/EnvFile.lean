import Walkthrough.Text.Lines
/-!
Files of variables: one `NAME=value` a line, with quotes, comments and references to variables.
-/

namespace Walkthrough.EnvFile

open Text (isBlank)

/-- Variables by name, each name once. -/
abbrev Variables := List (String × String)

def Variables.get? (vs : Variables) (name : String) : Option String := List.lookup name vs

def Variables.put : Variables → String → String → Variables
  | [], name, v => [(name, v)]
  | (n, w) :: vs, name, v => if n = name then (n, v) :: vs else (n, w) :: Variables.put vs name v

/-- One line's worth: a name with a value, a name alone, nothing, or what cannot be read; each
with the text behind it. -/
inductive Binding where
  | bound (name : List Char) (value : Option (List Char))
  | nothing
  | unreadable
  deriving DecidableEq, Repr

def isLineEnd (c : Char) : Bool := c == '\n' || c == '\r'

def isInner (c : Char) : Bool := isBlank c && !isLineEnd c

def skipInner (s : List Char) : List Char := s.dropWhile isInner

/-- What follows an optional `export`. -/
def skipExport (s : List Char) : List Char :=
  if "export".toList.isPrefixOf s && (s.drop 6).head?.any isInner then skipInner (s.drop 6) else s

/-- Where reading stops, if it does. -/
abbrev Reading (α : Type) := Except (List Char) (α × List Char)

/-- A key: quoted, bare, or none before a comment. -/
def key (s : List Char) : Except (List Char) (Option (List Char) × List Char) :=
  match s with
  | '#' :: _ => .ok (none, s)
  | '\'' :: r =>
    match r.takeWhile (· != '\''), r.dropWhile (· != '\'') with
    | c :: cs, _ :: rest => .ok (some (c :: cs), rest)
    | _, _ => .error s
  | _ =>
    let isKeyChar (c : Char) : Bool := !(c == '=' || c == '#' || isBlank c)
    match s.takeWhile isKeyChar with
    | [] => .error s
    | k => .ok (some k, s.dropWhile isKeyChar)

/-- The text up to a quote that closes it, and what follows that quote. A backslash takes the
character behind it along. -/
def upToQuote (quote : Char) : List Char → Option (List Char × List Char)
  | '\\' :: c :: r => (upToQuote quote r).map fun (t, rest) => ('\\' :: c :: t, rest)
  | c :: r =>
    if c = quote then some ([], r)
    else if c = '\\' then none
    else (upToQuote quote r).map fun (t, rest) => (c :: t, rest)
  | [] => none

def singleEscape? (c : Char) : Option Char := if c = '\\' ∨ c = '\'' then some c else none

def doubleEscape? (c : Char) : Option Char :=
  match c with
  | '\\' | '\'' | '"' => some c
  | 'a' => some '\x07'
  | 'b' => some '\x08'
  | 'f' => some '\x0c'
  | 'n' => some '\n'
  | 'r' => some '\r'
  | 't' => some '\t'
  | 'v' => some '\x0b'
  | _ => none

/-- A text with its escapes replaced; a backslash before anything else stays. -/
def unescape (escape? : Char → Option Char) : List Char → List Char
  | '\\' :: c :: r =>
    match escape? c with
    | some d => d :: unescape escape? r
    | none => '\\' :: unescape escape? (c :: r)
  | c :: r => c :: unescape escape? r
  | [] => []

def cutComment : List Char → List Char
  | [] => []
  | c :: r =>
    if isBlank c && (r.dropWhile isBlank).head? == some '#' then [] else c :: cutComment r

/-- A value behind its equals sign; `blanks` tells whether white space stands between them. -/
def value (blanks : Bool) (s : List Char) : Except (List Char) (List Char × List Char) :=
  match s with
  | [] => .ok ([], s)
  | '\'' :: r =>
    match upToQuote '\'' r with
    | some (t, rest) => .ok (unescape singleEscape? t, rest)
    | none => .error s
  | '"' :: r =>
    match upToQuote '"' r with
    | some (t, rest) => .ok (unescape doubleEscape? t, rest)
    | none => .error s
  | c :: _ =>
    if isLineEnd c || (c == '#' && blanks) then .ok ([], s)
    else
      .ok (Text.stripEnd isBlank (cutComment (s.takeWhile (!isLineEnd ·))),
        s.dropWhile (!isLineEnd ·))

/-- The value behind a key, if an equals sign follows. -/
def optionalValue (s : List Char) : Except (List Char) (Option (List Char) × List Char) :=
  match s with
  | '=' :: r => do
    let (v, rest) ← value (r.head?.any isInner) (skipInner r)
    .ok (some v, rest)
  | _ => .ok (none, s)

/-- What follows a comment, if one stands here. -/
def skipComment (s : List Char) : List Char :=
  match skipInner s with
  | '#' :: r => r.dropWhile (!isLineEnd ·)
  | _ => s

def lineEnd (s : List Char) : Except (List Char) (List Char) :=
  match skipInner s with
  | [] => .ok []
  | '\r' :: '\n' :: r => .ok r
  | c :: r => if isLineEnd c then .ok r else .error s

/-- One binding up to the end of its line, or the text at which it cannot be read. -/
def tryBinding (s : List Char) : Except (List Char) (Binding × List Char) := do
  let (k, r) ← key (skipExport s)
  let (v, r) ← optionalValue (skipInner r)
  let r ← lineEnd (skipComment r)
  match k with
  | some k => .ok (.bound k v, r)
  | none => .ok (.nothing, r)

def skipLine (s : List Char) : List Char := (s.dropWhile (!isLineEnd ·)).drop 1

def binding (s : List Char) : Binding × List Char :=
  match s.dropWhile isBlank with
  | [] => (.nothing, [])
  | c :: r =>
    match tryBinding (c :: r) with
    | .ok found => found
    | .error rest => (.unreadable, skipLine rest)

def lineEnds (s rest : List Char) : Nat :=
  (s.take (s.length - rest.length)).count '\n'

/-- The bindings of a text with the lines they start at; each takes at least one character. -/
def bindings (fuel line : Nat) (s : List Char) : List (Nat × Binding) :=
  match fuel, s with
  | 0, _ => []
  | _, [] => []
  | fuel + 1, s =>
    let (b, rest) := binding s
    (line, b) :: bindings fuel (line + lineEnds s rest) rest

/-- A reference's name, default and the text behind it. -/
def reference? (s : List Char) : Option (List Char × List Char × List Char) :=
  let stops (c : Char) : Bool := c == '\x7d' || c == ':'
  let name := s.takeWhile (!stops ·)
  match s.dropWhile (!stops ·) with
  | '\x7d' :: rest => some (name, [], rest)
  | ':' :: '-' :: r =>
    match r.dropWhile (· != '\x7d') with
    | _ :: rest => some (name, r.takeWhile (· != '\x7d'), rest)
    | [] => none
  | _ => none

theorem length_reference? {s name usual rest : List Char}
    (h : reference? s = some (name, usual, rest)) : rest.length < s.length := by
  have drop_le : ∀ (p : Char → Bool) (t : List Char), (t.dropWhile p).length ≤ t.length :=
    fun p t => (List.dropWhile_sublist p).length_le
  unfold reference? at h
  dsimp only at h
  split at h
  · next r hd =>
    have := drop_le (fun c => !(c == '\x7d' || c == ':')) s
    rw [hd] at this
    simp only [Option.some.injEq, Prod.mk.injEq] at h
    obtain ⟨-, -, rfl⟩ := h
    simp only [List.length_cons] at this
    omega
  · next r hd =>
    have h1 := drop_le (fun c => !(c == '\x7d' || c == ':')) s
    rw [hd] at h1
    split at h
    · next x t hr =>
      have h2 := drop_le (· != '\x7d') r
      rw [hr] at h2
      simp only [Option.some.injEq, Prod.mk.injEq] at h
      obtain ⟨-, -, rfl⟩ := h
      simp only [List.length_cons] at h1 h2
      omega
    · cases h
  · cases h

/-- A value with its references replaced by what they stand for. -/
def interpolate (lookup : String → Option String) : List Char → List Char
  | [] => []
  | '$' :: '\x7b' :: r =>
    match _h : reference? r with
    | some (name, usual, rest) =>
      ((lookup (String.ofList name)).elim usual String.toList) ++ interpolate lookup rest
    | none => '$' :: interpolate lookup ('\x7b' :: r)
  | c :: r => c :: interpolate lookup r
termination_by s => s.length
decreasing_by
  · have := length_reference? _h; simp only [List.length_cons]; omega
  all_goals simp

/-- What names stand for while values are read: a variable without a value is empty. -/
abbrev Known := List (String × Option String)

/-- Replaces references in values one by one, each seeing those before it and the surroundings. -/
def resolve (surroundings : Variables) (known : Known) :
    List (List Char × Option (List Char)) → Known
  | [] => known
  | (name, v) :: rest =>
    let lookup (n : String) : Option String :=
      match known.find? (·.1 == n) with
      | some (_, w) => some (w.getD "")
      | none => surroundings.get? n
    let name := String.ofList name
    let w := v.map fun t => String.ofList (interpolate lookup t)
    resolve surroundings ((name, w) :: known.filter (·.1 != name)) rest

/-- The bindings of a file's text; a byte order mark in front is dropped. -/
def read (s : String) : List (Nat × Binding) :=
  let s := match s.toList with
    | '\uFEFF' :: r => r
    | r => r
  bindings (s.length + 1) 1 s

def named (bs : List (Nat × Binding)) : List (List Char × Option (List Char)) :=
  bs.filterMap fun
    | (_, .bound k v) => some (k, v)
    | _ => none

/-- The variables of a file's text, given those around it. -/
def values (surroundings : Variables) (bs : List (Nat × Binding)) : Variables :=
  (resolve surroundings [] (named bs)).filterMap fun (n, v) => v.map (n, ·)

def unreadable (bs : List (Nat × Binding)) : List Nat :=
  bs.filterMap fun
    | (n, .unreadable) => some n
    | _ => none

end Walkthrough.EnvFile
